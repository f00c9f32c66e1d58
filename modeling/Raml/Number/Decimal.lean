import Raml.Number.Binary64

/-! # Decimal texts of binary64 numbers

Reading rounds the exact decimal to the nearest number. Writing looks for the
fewest digits that read back as the same number and takes the nearest such
decimal. The texts are positional while the decimal point lies between the
fourth place before the first digit and the sixteenth after it; `Layout` holds
those choices.
-/

namespace Raml

namespace Binary64

/-! ## Reading -/

/-- The number nearest to `±digits · 10^exponent`. Exponents far outside the range are answered
without forming the power. -/
def ofDecimal (negative : Bool) (digits : Nat) (exponent : Int) : Binary64 :=
  let size : Int := exponent + (Nat.toDigits 10 digits).length
  if digits = 0 || size < -400 then .finite negative 0
  else if 400 < size then .infinite negative
  else if 0 ≤ exponent then ofRatio negative (digits * Nat.pow 10 exponent.toNat) 1
  else ofRatio negative digits (Nat.pow 10 (-exponent).toNat)

def digitsValue (cs : List Char) : Nat :=
  cs.foldl (fun n c => n * 10 + (c.toNat - 48)) 0

def splitSign : List Char → Bool × List Char
  | '-' :: rest => (true, rest)
  | '+' :: rest => (false, rest)
  | cs => (false, cs)

/-- The exponent part of a decimal text, `some 0` when there is none. -/
def readExponent? : List Char → Option Int
  | [] => some 0
  | c :: rest =>
      if c = 'e' || c = 'E' then
        let (negative, digits) := splitSign rest
        if digits.isEmpty || !digits.all Char.isDigit then none
        else some (if negative then -(digitsValue digits) else digitsValue digits)
      else none

/-- The number that a decimal text names: a sign, digits with at most one point among or beside
them, and an exponent. -/
def ofDecimalChars? (cs : List Char) : Option Binary64 :=
  let (negative, body) := splitSign cs
  let whole := body.takeWhile Char.isDigit
  let afterWhole := body.dropWhile Char.isDigit
  let (fraction, tail) :=
    match afterWhole with
    | '.' :: rest => (rest.takeWhile Char.isDigit, rest.dropWhile Char.isDigit)
    | rest => ([], rest)
  if whole.isEmpty && fraction.isEmpty then none
  else
    (readExponent? tail).map fun exponent =>
      ofDecimal negative (digitsValue (whole ++ fraction)) (exponent - fraction.length)

/-- The number that a text names: a decimal, or in any case `inf`, `infinity` or `nan` after an
optional sign. -/
def ofText? (s : String) : Option Binary64 :=
  let (negative, body) := splitSign s.toList
  let word := String.ofList (body.map Char.toLower)
  if word = "inf" || word = "infinity" then some (.infinite negative)
  else if word = "nan" then some .nan
  else ofDecimalChars? s.toList

/-! ## Shortest digits -/

/-- The power of ten `e` with `10^(e-1) ≤ units · 2⁻¹⁰⁷⁴ < 10^e`, for a positive magnitude. -/
def decimalSize (units : Nat) : Int :=
  let guess : Int := ((units.log2 : Int) - 1074) * 30103 / 100000
  let below (e : Int) : Bool :=
    if 0 ≤ e then units < Nat.pow 10 e.toNat * one else units * Nat.pow 10 (-e).toNat < one
  ((List.range 4).map fun k : Nat => guess - 1 + (k : Int)).find? below |>.getD (guess + 3)

/-- The whole number of `10^exponent` at or below a magnitude. -/
def decimalFloor (units : Nat) (exponent : Int) : Nat :=
  if 0 ≤ exponent then units / (one * Nat.pow 10 exponent.toNat)
  else units * Nat.pow 10 (-exponent).toNat / one

/-- Whether the upper neighbour `digits + 1` on the grid of `10^exponent` is nearer than `digits`. -/
def upperIsNearer (units digits : Nat) (exponent : Int) : Bool :=
  if 0 ≤ exponent then (2 * digits + 1) * (one * Nat.pow 10 exponent.toNat) < 2 * units
  else (2 * digits + 1) * one < 2 * units * Nat.pow 10 (-exponent).toNat

/-- Of the two neighbours of a magnitude on a decimal grid, the nearer one that reads back. -/
def readBackOn? (units : Nat) (exponent : Int) : Option (Nat × Int) :=
  let low := decimalFloor units exponent
  let readsBack (d : Nat) : Bool := ofDecimal false d exponent = .finite false units
  let order := if upperIsNearer units low exponent then [low + 1, low] else [low, low + 1]
  (order.find? readsBack).map (·, exponent)

/-- The fewest digits, and their exponent, that read back as a positive magnitude. -/
def shortest (units : Nat) : Nat × Int :=
  let size := decimalSize units
  ((List.range 17).findSome? fun k => readBackOn? units (size - (k + 1 : Nat))).getD
    (decimalFloor units (size - 17), size - 17)

/-! ## Writing -/

/-- The choices of a decimal text: the exponents of the leading digit that are written without an
exponent part, the mark before the exponent and the least number of its digits. -/
structure Layout where
  leastPositional : Int
  greatestPositional : Int
  mark : Char
  exponentDigits : Nat

/-- Numbers from 10⁻⁴ to below 10¹⁶ are written positionally; the exponent has a sign and at
least two digits. -/
def Layout.standard : Layout := ⟨-4, 15, 'e', 2⟩

def zeros (n : Int) : List Char :=
  List.replicate n.toNat '0'

/-- The text of a positive decimal; a whole number keeps `.0`. -/
def Layout.write (layout : Layout) (digits : Nat) (exponent : Int) : List Char :=
  let all := Nat.toDigits 10 digits
  let ds := (all.reverse.dropWhile (· = '0')).reverse
  let point : Int := exponent + all.length
  let lead := point - 1
  if layout.leastPositional ≤ lead && lead ≤ layout.greatestPositional then
    if point ≤ 0 then '0' :: '.' :: (zeros (-point) ++ ds)
    else if ds.length ≤ point then ds ++ zeros (point - ds.length) ++ ['.', '0']
    else ds.take point.toNat ++ '.' :: ds.drop point.toNat
  else
    let power := Nat.toDigits 10 lead.natAbs
    let fraction := if ds.length ≤ 1 then [] else '.' :: ds.drop 1
    ds.take 1 ++ fraction ++ layout.mark :: (if lead < 0 then '-' else '+') ::
      (zeros (layout.exponentDigits - power.length) ++ power)

def text : Binary64 → String
  | .notNumber _ => "nan"
  | .infinite negative => if negative then "-inf" else "inf"
  | .finite negative units =>
      let body :=
        if units = 0 then ['0', '.', '0']
        else
          let (digits, exponent) := shortest units
          Layout.standard.write digits exponent
      String.ofList (if negative then '-' :: body else body)

end Binary64

end Raml
