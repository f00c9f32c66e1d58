import Raml.Number.Decimal
import Raml.Text.Blank
import Raml.Text.Digit
import Raml.Text.Pieces

/-! # Texts of integers

An integer is written as a sign and digits, with single underscores between
digits and blanks around it. A fraction of zeros does not change its value.
-/

namespace Raml

namespace Number

def digits? (cs : List Char) : Option Nat :=
  let groups := Text.splitChars '_' cs
  if groups.all (fun g => !g.isEmpty && g.all Char.isDigit) then
    some (Binary64.digitsValue groups.flatten)
  else none

/-- The integer that a text writes: a sign, digits, and a fraction of zeros. -/
def intOfText? (s : String) : Option Int :=
  let cs := (Text.trim s).toList
  let (negative, body) := Binary64.splitSign cs
  let whole := body.takeWhile (· ≠ '.')
  let fraction := (body.dropWhile (· ≠ '.')).drop 1
  if fraction.all (· = '0') then
    (digits? whole).map fun n => if negative then -(n : Int) else n
  else none

/-- The most digits that are read as a decimal integer. -/
def greatestLength : Nat := 4300

def scriptDigits? (cs : List Char) : Option Nat :=
  let groups := Text.splitChars '_' cs
  if groups.any List.isEmpty || greatestLength < groups.flatten.length then none
  else
    (groups.flatten.mapM Text.digitValue?).map fun digits =>
      digits.foldl (fun n digit => n * 10 + digit) 0

/-- The integer that a text writes with digits of any script: a sign and digits. -/
def intOfScriptText? (s : String) : Option Int :=
  let (negative, body) := Binary64.splitSign (Text.trim s).toList
  (scriptDigits? body).map fun n => if negative then -(n : Int) else n

/-! ## Other bases -/

def digitBelow? (base : Nat) (c : Char) : Option Nat :=
  (Text.digitValue? c <|> Text.hexValue? c).filter (· < base)

/-- The integer that a text writes in a base: blanks around it do not count, and after the sign the
base may be marked by a zero and a letter. -/
def intOfBase? (base : Nat) (mark : Char) (cs : List Char) : Option Int :=
  let (negative, body) := Binary64.splitSign (Text.dropBlankEnd (Text.dropBlank cs))
  let digits := match body with
    | '0' :: c :: rest => if c.toLower = mark then rest else body
    | body => body
  if digits.isEmpty then none
  else
    (digits.mapM (digitBelow? base)).map fun ds =>
      let n : Nat := ds.foldl (fun n d => n * base + d) 0
      if negative then -(n : Int) else n

/-! ## Decimal numbers in any script -/

/-- A decimal digit of any script as one of ASCII. -/
def asciiDigit (c : Char) : Char :=
  match Text.digitValue? c with
  | some n => Char.ofNat (48 + n)
  | none => c

/-- The binary64 number that a text names with digits of any script; blanks around it do not
count. -/
def floatOfScriptText? (s : String) : Option Binary64 :=
  Binary64.ofText? (String.ofList ((Text.trim s).toList.map asciiDigit))

end Number

end Raml
