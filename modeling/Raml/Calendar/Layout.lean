import Raml.Calendar.Instant
import Raml.Text.Blank
import Raml.Text.Digit

/-! # Layouts of dates and times

A layout says in which order the parts of a date-time are written and what
stands between them. Writing follows it to the letter. Reading is more lenient:
a number may lack its leading zeros, a name may be in any case, a blank may be
several, and digits may be of any script. A text conforms to a layout when
writing what was read from it gives the text back.
-/

namespace Raml

inductive LayoutPart
  | mark (c : Char)
  | blank
  /-- The year in four digits, or in as few as it has when it is not padded. -/
  | year (padded : Bool)
  | month
  | day
  | hour
  | minute
  | second
  | weekdayName
  | monthName
  | offset
deriving DecidableEq

/-- The parts of a date-time in the order in which they are written. -/
abbrev Layout := List LayoutPart

namespace Calendar

def weekdayNames : List String := ["Mon", "Tue", "Wed", "Thu", "Fri", "Sat", "Sun"]

def monthNames : List String :=
  ["Jan", "Feb", "Mar", "Apr", "May", "Jun", "Jul", "Aug", "Sep", "Oct", "Nov", "Dec"]

/-! ## Writing -/

def padded (width n : Nat) : List Char :=
  let digits := Nat.toDigits 10 n
  List.replicate (width - digits.length) '0' ++ digits

/-- An offset as `+05:30`, with seconds and microseconds if there are any. -/
def writeOffset (offset : Int) : List Char :=
  let seconds := offset.natAbs / Instant.oneSecond
  let micros := offset.natAbs % Instant.oneSecond
  let minutes := seconds / 60
  (if offset < 0 then '-' else '+') :: padded 2 (minutes / 60) ++ ':' :: padded 2 (minutes % 60) ++
    (if seconds % 60 = 0 ∧ micros = 0 then [] else ':' :: padded 2 (seconds % 60)) ++
    (if micros = 0 then [] else '.' :: padded 6 micros)

def writePart (t : Instant) : LayoutPart → List Char
  | .mark c => [c]
  | .blank => [' ']
  | .year isPadded => padded (if isPadded then 4 else 1) t.date.year
  | .month => padded 2 t.date.month
  | .day => padded 2 t.date.day
  | .hour => padded 2 t.hour
  | .minute => padded 2 t.minute
  | .second => padded 2 t.second
  | .weekdayName => (weekdayNames.getD t.date.weekday "").toList
  | .monthName => (monthNames.getD (t.date.month - 1) "").toList
  | .offset => t.offset.elim [] writeOffset

def write (layout : Layout) (t : Instant) : List Char :=
  layout.flatMap (writePart t)

/-! ## Reading -/

/-- The number that up to `most` digits of any script write, at least one, and what follows. -/
def readNumber (most : Nat) (cs : List Char) : Option (Nat × List Char) :=
  let digits := (cs.take most).takeWhile Text.isDecimalDigit
  if digits.isEmpty then none
  else
    some (digits.foldl (fun n c => n * 10 + (Text.digitValue? c).getD 0) 0,
      cs.drop digits.length)

def readExactly (count : Nat) (cs : List Char) : Option (Nat × List Char) :=
  if ((cs.take count).takeWhile Text.isDecimalDigit).length = count then readNumber count cs
  else none

/-- Whether a text starts with a word in any case. -/
def startsWord (word : String) (cs : List Char) : Bool :=
  (cs.take word.length).map Char.toLower == word.toList.map Char.toLower

def readName (names : List String) (cs : List Char) : Option (Nat × List Char) :=
  match names.findIdx? (startsWord · cs) with
  | some i => some (i, cs.drop ((names.getD i "").length))
  | none => none

/-- What follows a mark that may be missing. -/
def skipMark (c : Char) : List Char → List Char
  | d :: rest => if d = c then rest else d :: rest
  | [] => []

/-- The digits after a point as millionths, and what follows; nothing when there is no point. -/
def readFraction (cs : List Char) : Option (Nat × List Char) :=
  match cs with
  | '.' :: rest =>
      let digits := (rest.take 6).takeWhile Text.isDecimalDigit
      match readNumber 6 rest with
      | some (n, rest) => some (n * Nat.pow 10 (6 - digits.length), rest)
      | none => none
  | cs => some (0, cs)

def readOffsetSize (cs : List Char) : Option (Nat × List Char) := do
  let (hours, cs) ← readExactly 2 cs
  let (minutes, cs) ← readExactly 2 (skipMark ':' cs)
  if 60 ≤ minutes then none
  match readExactly 2 (skipMark ':' cs) with
  | none => some ((hours * 60 + minutes) * 60 * Instant.oneSecond, cs)
  | some (seconds, cs) =>
      if 60 ≤ seconds then none
      let (micros, cs) ← readFraction cs
      some (((hours * 60 + minutes) * 60 + seconds) * Instant.oneSecond + micros, cs)

def readOffset : List Char → Option (Int × List Char)
  | '+' :: cs => (readOffsetSize cs).map fun (n, rest) => ((n : Int), rest)
  | '-' :: cs => (readOffsetSize cs).map fun (n, rest) => (-(n : Int), rest)
  | _ => none

/-- A date-time with one part read from the start of a text, and what follows. -/
def readPart (t : Instant) (cs : List Char) : LayoutPart → Option (Instant × List Char)
  | .mark c =>
      match cs with
      | d :: rest => if d.toLower = c.toLower then some (t, rest) else none
      | [] => none
  | .blank =>
      match cs with
      | d :: rest => if Text.isBlank d then some (t, rest.dropWhile Text.isBlank) else none
      | [] => none
  | .year _ => (readExactly 4 cs).map fun (n, rest) =>
      ({ t with date := { t.date with year := n } }, rest)
  | .month => (readNumber 2 cs).map fun (n, rest) =>
      ({ t with date := { t.date with month := n } }, rest)
  | .day => (readNumber 2 cs).map fun (n, rest) =>
      ({ t with date := { t.date with day := n } }, rest)
  | .hour => (readNumber 2 cs).map fun (n, rest) => ({ t with hour := n }, rest)
  | .minute => (readNumber 2 cs).map fun (n, rest) => ({ t with minute := n }, rest)
  | .second => (readNumber 2 cs).map fun (n, rest) => ({ t with second := n }, rest)
  | .weekdayName => (readName weekdayNames cs).map fun (_, rest) => (t, rest)
  | .monthName => (readName monthNames cs).map fun (i, rest) =>
      ({ t with date := { t.date with month := i + 1 } }, rest)
  | .offset => (readOffset cs).map fun (n, rest) => ({ t with offset := some n }, rest)

def readParts : Layout → Instant → List Char → Option Instant
  | [], t, [] => some t
  | [], _, _ :: _ => none
  | part :: layout, t, cs =>
      match readPart t cs part with
      | some (t, rest) => readParts layout t rest
      | none => none

/-- The date-time that the parts missing from a layout are taken from. -/
def origin : Instant := ⟨⟨1900, 1, 1⟩, 0, 0, 0, 0, none⟩

/-- The valid date-time that a text writes in a layout. -/
def read (layout : Layout) (cs : List Char) : Option Instant :=
  match readParts layout origin cs with
  | some t => if t.IsValid then some t else none
  | none => none

/-- Whether writing what is read from a text gives the text back. -/
def conforms (layout : Layout) (cs : List Char) : Bool :=
  match read layout cs with
  | some t => write layout t == cs
  | none => false

end Calendar

/-! ## The usual texts -/

def Date.isoText (d : Date) : String :=
  String.ofList (Calendar.padded 4 d.year ++ '-' :: Calendar.padded 2 d.month ++
    '-' :: Calendar.padded 2 d.day)

/-- Date and time with a separator between them; microseconds appear only when there are some. -/
def Instant.isoText (sep : Char) (t : Instant) : String :=
  let layout : Layout := [.year true, .mark '-', .month, .mark '-', .day, .mark sep, .hour,
    .mark ':', .minute, .mark ':', .second]
  let fraction := if t.micro = 0 then [] else '.' :: Calendar.padded 6 t.micro
  String.ofList (Calendar.write layout t ++ fraction ++ Calendar.write [.offset] t)

end Raml
