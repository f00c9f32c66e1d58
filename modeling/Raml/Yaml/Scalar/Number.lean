import Raml.Fault
import Raml.Number.Integer

/-! # Numbers in scalars

Which plain scalars are numbers is told by their form: integers may be binary,
octal or hexadecimal, and numbers may be written in base sixty with colons. A
scalar that is only said to be a number by its tag is read in the same way, and
it may turn out not to be one.
-/

namespace Raml.Yaml

/-- The characters that a form is about; a line feed at the end does not belong to them. -/
def formChars (s : String) : List Char :=
  let cs := s.toList
  if cs.getLast? = some '\n' then cs.dropLast else cs

/-! ## Forms -/

def isSpacedDigit (c : Char) : Bool :=
  c.isDigit || c = '_'

def isSpacedDigits (cs : List Char) : Bool :=
  cs.head?.any Char.isDigit && cs.all isSpacedDigit

def isSixtieth (cs : List Char) : Bool :=
  match cs with
  | [c] => c.isDigit
  | [c, d] => '0' ≤ c && c ≤ '5' && d.isDigit
  | _ => false

/-- Digits in base sixty with colons between them, at least two. -/
def isBaseSixty (cs : List Char) : Bool :=
  match Text.splitChars ':' cs with
  | first :: rest => isSpacedDigits first && !rest.isEmpty && rest.all isSixtieth
  | [] => false

def isInteger (s : String) : Bool :=
  let body := (Binary64.splitSign (formChars s)).2
  match body with
  | '0' :: 'b' :: ds => !ds.isEmpty && ds.all fun c => c = '0' || c = '1' || c = '_'
  | '0' :: 'x' :: ds => !ds.isEmpty && ds.all fun c => Text.isHexDigit c || c = '_'
  | '0' :: ds => ds.all fun c => ('0' ≤ c && c ≤ '7') || c = '_'
  | body => isSpacedDigits body || isBaseSixty body

/-- An exponent with its sign, or nothing. -/
def isExponent (cs : List Char) : Bool :=
  match cs with
  | [] => true
  | [_] => false
  | e :: sign :: ds =>
      (e = 'e' || e = 'E') && (sign = '-' || sign = '+') && !ds.isEmpty && ds.all Char.isDigit

/-- Whether a scalar has the form of a decimal number: it has a point, and a sign only if there is
a digit before the point. -/
def isDecimal (cs : List Char) : Bool :=
  let body := (Binary64.splitSign cs).2
  let whole := body.takeWhile (· ≠ '.')
  match body.dropWhile (· ≠ '.') with
  | _ :: rest =>
      let fraction := rest.takeWhile isSpacedDigit
      let exponent := rest.dropWhile isSpacedDigit
      if whole.isEmpty then
        cs.head? = some '.' && isSpacedDigits fraction && isExponent exponent
      else if isBaseSixty whole then exponent.isEmpty
      else isSpacedDigits whole && isExponent exponent
  | [] => false

/-- Whether a scalar has the form of a number that is not an integer. -/
def isFloat (s : String) : Bool :=
  let cs := formChars s
  let word := String.ofList (Binary64.splitSign cs).2
  isDecimal cs || [".inf", ".Inf", ".INF"].contains word ||
    [".nan", ".NaN", ".NAN"].contains (String.ofList cs)

/-! ## Values -/

/-- The digits of a number in base sixty, the last one first, as a sum of their multiples. -/
def sumOfSixtieths {α : Type} (multiple : α → Nat → Option α) (sum : α → α → α) (zero : α) :
    Nat → List α → Option α
  | _, [] => some zero
  | base, d :: rest => do
      let m ← multiple d base
      sumOfSixtieths multiple sum (sum zero m) (base * 60) rest

def readable {α : Type} (x : Option α) : Except Fault α :=
  match x with
  | some a => .ok a
  | none => .error .badValue

/-- The integer that a text writes without its underscores. The bases other than ten are told by
how the digits start. -/
def intOf (s : String) : Except Fault Int :=
  let cs := s.toList.filter (· ≠ '_')
  let (negative, body) := Binary64.splitSign cs
  let signed (n : Int) : Int := if negative then -n else n
  if body.isEmpty then .error .beyondEnd
  else if body == ['0'] then .ok 0
  else
    (readable <| match body with
    | '0' :: 'b' :: ds => Number.intOfBase? 2 'b' ds
    | '0' :: 'x' :: ds => Number.intOfBase? 16 'x' ds
    | '0' :: _ => Number.intOfBase? 8 'o' body
    | body =>
        if body.contains ':' then
          ((Text.splitChars ':' body).mapM fun ds =>
            Number.intOfScriptText? (String.ofList ds)).bind fun digits =>
              sumOfSixtieths (fun d base => some (d * base)) (· + ·) 0 1 digits.reverse
        else Number.intOfScriptText? (String.ofList body)).map signed

/-- What is no number in a document; all its occurrences are one object. -/
def sharedNan : Binary64 := .notNumber (some 1)

/-- The number that a text writes without its underscores. -/
def floatOf (s : String) : Except Fault Binary64 :=
  let cs := (s.toList.filter (· ≠ '_')).map Char.toLower
  let (negative, body) := Binary64.splitSign cs
  let signed (x : Binary64) : Binary64 := if negative then x.negate else x
  if cs.isEmpty then .error .beyondEnd
  else if body == ".inf".toList then .ok (.infinite negative)
  else if body == ".nan".toList then .ok sharedNan
  else if body.contains ':' then do
    let digits ← readable ((Text.splitChars ':' body).mapM fun ds =>
      Number.floatOfScriptText? (String.ofList ds))
    match sumOfSixtieths (fun d base => (Binary64.ofInt? base).map d.mul) Binary64.sum
        (.finite false 0) 1 digits.reverse with
    | some x => .ok (signed x)
    | none => .error .overflow
  else (readable (Number.floatOfScriptText? (String.ofList body))).map signed

end Raml.Yaml
