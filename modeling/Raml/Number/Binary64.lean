/-! # Binary64 numbers

A finite binary64 number is a whole number of units of 2⁻¹⁰⁷⁴, the smallest
positive one, so comparison and remainder are exact integer arithmetic. Every
other operation computes the exact rational result and rounds it once, to the
nearest number with 53 significant bits and to the even one on a tie.
-/

namespace Raml

/-- A binary64 number. `finite negative units` is `±units · 2⁻¹⁰⁷⁴`; zero has a sign. What is no
number may occur several times as one object, which is told by its identity. -/
inductive Binary64
  | notNumber (object : Option Nat)
  | infinite (negative : Bool)
  | finite (negative : Bool) (units : Nat)
deriving DecidableEq

namespace Binary64

/-- What is no number and occurs only once. -/
def nan : Binary64 := .notNumber none

def one : Nat := Nat.pow 2 1074

/-- The first magnitude, in units, that is too large for a finite number. -/
def limit : Nat := Nat.pow 2 2098

/-! ## Rounding -/

/-- The whole number nearest to a quotient, the even one of two. -/
def roundQuotient (num den : Nat) : Nat :=
  let q := num / den
  let r := num % den
  if 2 * r < den then q
  else if den < 2 * r then q + 1
  else if q % 2 = 0 then q else q + 1

/-- The distance, in units, between neighbouring numbers around a magnitude. -/
def spacing (units : Nat) : Nat := Nat.pow 2 (units.log2 - 52)

/-- The number nearest to `±num / den`, an infinity when it is too large. -/
def ofRatio (negative : Bool) (num den : Nat) : Binary64 :=
  let step := spacing (num * one / den)
  let units := roundQuotient (num * one) (den * step) * step
  if units < limit then .finite negative units else .infinite negative

/-- The number itself, none unless it is finite. -/
def finite? : Binary64 → Option Binary64
  | .finite s u => some (.finite s u)
  | _ => none

/-- The number nearest to an integer, none when it is too large. -/
def ofInt? (n : Int) : Option Binary64 := (ofRatio (n < 0) n.natAbs 1).finite?

/-! ## Views -/

/-- The signed count of units of a finite number. -/
def signedUnits (negative : Bool) (units : Nat) : Int :=
  if negative then -units else units

def toInt? : Binary64 → Option Int
  | .finite s u => if u % one = 0 then some (signedUnits s (u / one)) else none
  | _ => none

def truncate? : Binary64 → Option Int
  | .finite s u => some (signedUnits s (u / one))
  | _ => none

/-! ## Comparison -/

/-- Equality of value: the two zeros are equal, and what is no number equals nothing. -/
def same : Binary64 → Binary64 → Bool
  | .finite s u, .finite t v => signedUnits s u == signedUnits t v
  | .infinite s, .infinite t => s == t
  | _, _ => false

/-- Strictly smaller in value; nothing is smaller or larger than what is no number. -/
def less : Binary64 → Binary64 → Bool
  | .finite s u, .finite t v => signedUnits s u < signedUnits t v
  | .infinite s, .infinite t => s && !t
  | .infinite s, .finite _ _ => s
  | .finite _ _, .infinite t => !t
  | _, _ => false

/-! ## Arithmetic -/

def abs : Binary64 → Binary64
  | .finite _ u => .finite false u
  | .infinite _ => .infinite false
  | .notNumber _ => .nan

def negate : Binary64 → Binary64
  | .finite s u => .finite (!s) u
  | .infinite s => .infinite (!s)
  | .notNumber _ => .nan

/-- The rounded sum of two finite numbers; a sum of zero is positive. -/
def sum : Binary64 → Binary64 → Binary64
  | .finite s u, .finite t v =>
      let total := signedUnits s u + signedUnits t v
      ofRatio (total < 0) total.natAbs one
  | _, _ => .nan

def mul : Binary64 → Binary64 → Binary64
  | .finite s u, .finite t v => ofRatio (s != t) (u * v) (one * one)
  | _, _ => .nan

/-- The rounded quotient; a finite number over zero is `nan`. -/
def quotient : Binary64 → Binary64 → Binary64
  | .finite s u, .finite t v => if v = 0 then .nan else ofRatio (s != t) u v
  | .infinite s, .finite t _ => .infinite (s != t)
  | .finite s _, .infinite t => .finite (s != t) 0
  | _, _ => .nan

def distance : Binary64 → Binary64 → Binary64
  | .finite s u, .finite t v => ofRatio false (signedUnits s u - signedUnits t v).natAbs one
  | _, _ => .nan

/-- The remainder of division toward zero, exact and with the sign of the dividend; `none` where
it is undefined, for an infinite dividend or a zero divisor. -/
def remainder? : Binary64 → Binary64 → Option Binary64
  | .notNumber _, _ => some .nan
  | _, .notNumber _ => some .nan
  | .infinite _, _ => none
  | .finite s u, .infinite _ => some (.finite s u)
  | .finite s u, .finite _ v => if v = 0 then none else some (.finite s (u % v))

/-- Whether two numbers agree up to `relative` of the larger one or up to `absolute`. -/
def isClose (relative absolute : Binary64) (a b : Binary64) : Bool :=
  if a.same b then true
  else
    match a, b with
    | .finite _ _, .finite _ _ =>
        let gap := distance a b
        !(mul relative b).abs.less gap || !(mul relative a).abs.less gap || !absolute.less gap
    | _, _ => false

end Binary64

end Raml
