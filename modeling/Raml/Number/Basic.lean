import Raml.Number.Decimal

/-! # Numbers

A number is an exact integer or a binary64 number. Both kinds are compared by
their exact value.
-/

namespace Raml

/-- A number as it stands in a document. -/
inductive Number
  | int (n : Int)
  | float (x : Binary64)
deriving DecidableEq

namespace Number

/-- Equality of value across the two kinds. -/
def same : Number → Number → Bool
  | .int m, .int n => m == n
  | .int m, .float x => x.toInt? == some m
  | .float x, .int n => x.toInt? == some n
  | .float x, .float y => x.same y

/-- Strictly smaller in value. Nothing is smaller or larger than what is no number. -/
def less : Number → Number → Bool
  | .int m, .int n => m < n
  | .float x, .float y => x.less y
  | .int m, .float y =>
      match y with
      | .notNumber _ => false
      | .infinite negative => !negative
      | .finite s u => m * Binary64.one < Binary64.signedUnits s u
  | .float x, .int n =>
      match x with
      | .notNumber _ => false
      | .infinite negative => negative
      | .finite s u => Binary64.signedUnits s u < n * Binary64.one

def isZero : Number → Bool
  | .int n => n == 0
  | .float (.finite _ u) => u == 0
  | .float _ => false

/-- The number as a binary64 number, rounded; none when an integer is too large. -/
def toBinary64? : Number → Option Binary64
  | .int n => Binary64.ofInt? n
  | .float x => some x

def text : Number → String
  | .int n => toString n
  | .float x => x.text

end Number

end Raml
