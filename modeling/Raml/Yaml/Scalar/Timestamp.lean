import Raml.Fault
import Raml.Yaml.Scalar.Number
import Raml.Yaml.Spot

/-! # Timestamps in scalars

A timestamp is a date, or a date with a time of day and perhaps a zone. In a
plain scalar a date alone has to have two digits for month and day.
-/

namespace Raml.Yaml

/-- A time of day as it is written; the zone is in minutes east of universal time. -/
structure WrittenTime where
  hour : Nat
  minute : Nat
  second : Nat
  fraction : List Char
  zone : Option Int

structure WrittenTimestamp where
  date : Date
  /-- Whether month and day have two digits each. -/
  isPadded : Bool
  time : Option WrittenTime

namespace WrittenTimestamp

def digits? (n : Nat) (cs : List Char) : Option (Nat × List Char) :=
  let ds := cs.take n
  if ds.length = n && ds.all Char.isDigit then some (Nat.ofDigitChars 10 ds 0, cs.drop n) else none

def upToTwo? (cs : List Char) : Option (Nat × List Char) :=
  digits? 2 cs <|> digits? 1 cs

def after? (c : Char) (cs : List Char) : Option (List Char) :=
  match cs with
  | d :: rest => if d = c then some rest else none
  | [] => none

def readZoneMinutes? (cs : List Char) : Option (Nat × List Char) :=
  match after? ':' cs with
  | some rest => digits? 2 rest
  | none => some (0, cs)

def readZone? (cs : List Char) : Option (Option Int) :=
  match cs.dropWhile isBlank with
  | [] => if cs.isEmpty then some none else none
  | ['Z'] => some (some 0)
  | sign :: rest =>
      if sign = '+' || sign = '-' then do
        let (hours, rest) ← upToTwo? rest
        let (minutes, rest) ← readZoneMinutes? rest
        let distance : Int := (hours * 60 + minutes : Nat)
        if rest.isEmpty then some (some (if sign = '-' then -distance else distance)) else none
      else none

def readTime? (cs : List Char) : Option WrittenTime := do
  let (hour, cs) ← upToTwo? cs
  let cs ← after? ':' cs
  let (minute, cs) ← digits? 2 cs
  let cs ← after? ':' cs
  let (second, cs) ← digits? 2 cs
  let (fraction, cs) := match cs with
    | '.' :: rest => (rest.takeWhile Char.isDigit, rest.dropWhile Char.isDigit)
    | cs => ([], cs)
  let zone ← readZone? cs
  some ⟨hour, minute, second, fraction, zone⟩

/-- What follows the mark between date and time. -/
def afterDate? (cs : List Char) : Option (List Char) :=
  match cs with
  | 'T' :: rest | 't' :: rest => some rest
  | c :: _ => if isBlank c then some (cs.dropWhile isBlank) else none
  | [] => none

def ofChars? (cs : List Char) : Option WrittenTimestamp := do
  let (year, cs) ← digits? 4 cs
  let cs ← after? '-' cs
  let (month, rest) ← upToTwo? cs
  let monthLength := cs.length - rest.length
  let cs ← after? '-' rest
  let (day, rest) ← upToTwo? cs
  let dayLength := cs.length - rest.length
  let isPadded := monthLength == 2 && dayLength == 2
  if rest.isEmpty then some ⟨⟨year, month, day⟩, isPadded, none⟩
  else do
    let cs ← afterDate? rest
    let time ← readTime? cs
    some ⟨⟨year, month, day⟩, isPadded, some time⟩

/-- A fraction of a second in microseconds; further digits do not count. -/
def micros (fraction : List Char) : Nat :=
  Nat.ofDigitChars 10 ((fraction ++ List.replicate 6 '0').take 6) 0

def value (t : WrittenTimestamp) : Except Fault Value :=
  match t.time with
  | none => if t.date.IsValid then .ok (.date t.date) else .error .badValue
  | some time =>
      let instant : Instant :=
        ⟨t.date, time.hour, time.minute, time.second, micros time.fraction,
          time.zone.map fun minutes => minutes * 60 * Instant.oneSecond⟩
      if instant.IsValid then .ok (.instant instant) else .error .badValue

end WrittenTimestamp

def isTimestamp (s : String) : Bool :=
  match WrittenTimestamp.ofChars? (formChars s) with
  | some t => t.isPadded || t.time.isSome
  | none => false

/-- The date or the date-time that a text writes. -/
def timestampOf (s : String) : Except Fault Value :=
  match WrittenTimestamp.ofChars? (formChars s) with
  | some t => t.value
  | none => .error .formless

end Raml.Yaml
