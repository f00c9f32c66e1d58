import Raml.Fault
import Raml.Text.Digit
import Raml.Text.Surrogate
import Raml.Yaml.Spot

/-! # Quoted scalars

Between single quotes a doubled quote stands for one, and nothing else is
special. Between double quotes a backslash starts an escape. In both, line
breaks are folded, and the blanks around them do not count.
-/

namespace Raml.Yaml.Quoted

inductive Quote
  | single
  | double
deriving DecidableEq

def Quote.char : Quote → Char
  | .single => '\''
  | .double => '"'

/-! ## Escapes -/

def letterEscapes : List (Char × Nat) := [
  ('0', 0x00), ('a', 0x07), ('b', 0x08), ('t', 0x09), ('\t', 0x09), ('n', 0x0a), ('v', 0x0b),
  ('f', 0x0c), ('r', 0x0d), ('e', 0x1b), (' ', 0x20), ('"', 0x22), ('\\', 0x5c), ('/', 0x2f),
  ('N', 0x85), ('_', 0xa0), ('L', 0x2028), ('P', 0x2029)]

/-- How many hexadecimal digits follow the letter of an escape. -/
def codeLength? (c : Char) : Option Nat :=
  if c = 'x' then some 2 else if c = 'u' then some 4 else if c = 'U' then some 8 else none

def codeOf (n : Nat) (ts : List Spot) : Except Fault Nat :=
  let digits := (chars (ts.take n)).filterMap Text.hexValue?
  if digits.length = n then .ok (digits.foldl (fun code digit => code * 16 + digit) 0)
  else .error .yaml

/-- The character of a code. A code beyond all characters is out of range, and one that does not
fit a machine word is too large. -/
def charOf (code : Nat) : Except Fault Char :=
  if code < 0x110000 then
    .ok (Text.charOfCode code)
  else if code < 0x80000000 then .error .badValue
  else .error .overflow

/-- The second half of a surrogate pair, if an escape for one comes next. -/
def lowHalf? (ts : List Spot) : Option Nat :=
  if next ts = '\\' && nextAt 1 ts = 'u' then
    match codeOf 4 (ts.drop 2) with
    | .ok code => if 0xdc00 ≤ code && code < 0xe000 then some code else none
    | .error _ => none
  else none

def charOrPair (code : Nat) (ts : List Spot) : Except Fault (List Char × List Spot) :=
  match if 0xd800 ≤ code && code < 0xdc00 then lowHalf? ts else none with
  | some low =>
      .ok ([Char.ofNat (0x10000 + (code - 0xd800) * 0x400 + (low - 0xdc00))], ts.drop 6)
  | none => (charOf code).map fun c => ([c], ts)

/-! ## Line breaks -/

/-- Empty lines inside quotes. No document's mark may come at the start of a line. -/
def emptyLines (atStart : Bool) : List Spot → Except Fault (List Char × List Spot)
  | [] => .ok ([], [])
  | s :: rest =>
      if atStart && isDocumentMarker (s :: rest) then .error .yaml
      else if isBlank s.char || isHalfBreak s rest then emptyLines false rest
      else if isBreak s.char then
        (emptyLines true rest).map fun r => (normalBreak s.char :: r.1, r.2)
      else .ok ([], s :: rest)

/-- What an escape stands for. An escaped line break stands for the empty lines after it. -/
def escape (ts : List Spot) : Except Fault (List Char × List Spot) :=
  let c := next ts
  match letterEscapes.find? (·.1 = c), codeLength? c, lineBreak? ts with
  | some (_, code), _, _ => .ok ([Char.ofNat code], ts.drop 1)
  | none, some n, _ => do
      let code ← codeOf n (ts.drop 1)
      charOrPair code (ts.drop (n + 1))
  | none, none, some (_, rest) => emptyLines true rest
  | none, none, none => .error .yaml

/-- What blanks and line breaks inside quotes stand for. -/
def gap (ts : List Spot) : Except Fault (List Char × List Spot) :=
  let (blanks, ts) := stretch isBlank ts
  match lineBreak? ts with
  | some (lineBreak, ts) =>
      (emptyLines true ts).map fun r => (folded lineBreak r.1, r.2)
  | none => if next ts = endMark then .error .yaml else .ok (blanks, ts)

/-! ## Scalars -/

/-- The next piece of a quoted scalar, none at the closing quote. -/
def piece? (quote : Quote) (ts : List Spot) : Except Fault (Option (List Char × List Spot)) :=
  let c := next ts
  if c = quote.char then
    if quote = .single && nextAt 1 ts = '\'' then .ok (some (['\''], ts.drop 2)) else .ok none
  else if quote = .double && c = '\\' then (escape (ts.drop 1)).map some
  else if endsIndicator c then (gap ts).map some
  else .ok (some ([c], ts.drop 1))

def readWithin (quote : Quote) : Nat → List Spot → Except Fault (List Char × List Spot)
  | 0, _ => .error .yaml
  | fuel + 1, ts => do
      match ← piece? quote ts with
      | none => .ok ([], ts.drop 1)
      | some (cs, ts) => do
          let (more, ts) ← readWithin quote fuel ts
          .ok (cs ++ more, ts)

def read (quote : Quote) (ts : List Spot) : Except Fault (List Char × List Spot) :=
  readWithin quote ts.length (ts.drop 1)

end Raml.Yaml.Quoted
