import Raml.Fault
import Raml.Yaml.Spot

/-! # Block scalars

A block scalar is a stretch of lines that are indented alike. A literal one
keeps its line breaks, a folded one makes a space of a single break between
lines that start without a blank. The header tells what becomes of the line
breaks at the end, and how far the lines are indented if they do not show it.
-/

namespace Raml.Yaml.Block

inductive Ending
  /-- The last line keeps its break, and empty lines after it do not count. -/
  | clip
  | strip
  | keep
deriving DecidableEq

structure Header where
  ending : Ending
  /-- By how much the lines are indented further than what is around them. -/
  increment : Option Nat

/-! ## Header -/

def ending? (c : Char) : Option Ending :=
  if c = '+' then some .keep else if c = '-' then some .strip else none

def increment? (c : Char) : Option Nat :=
  if c.isDigit then some (c.toNat - 48) else none

/-- The indicators after the character that starts a block scalar: an ending and an increment in
either order. -/
def indicators (ts : List Spot) : Header × List Spot :=
  match ending? (next ts), increment? (next ts) with
  | some ending, _ =>
      match increment? (nextAt 1 ts) with
      | some n => (⟨ending, some n⟩, ts.drop 2)
      | none => (⟨ending, none⟩, ts.drop 1)
  | none, some n =>
      match ending? (nextAt 1 ts) with
      | some ending => (⟨ending, some n⟩, ts.drop 2)
      | none => (⟨.clip, some n⟩, ts.drop 1)
  | none, none => (⟨.clip, none⟩, ts)

/-- What follows the rest of a header line: spaces and a comment. -/
def skipHeaderLine (ts : List Spot) : Except Fault (List Spot) :=
  let ts := skipSpaces ts
  let ts := if next ts = '#' then skipLine ts else ts
  if endsLine (next ts) then
    match lineBreak? ts with
    | some (_, ts) => .ok ts
    | none => .ok ts
  else .error .yaml

/-- The header of a block scalar. An increment of zero is not one. -/
def readHeader (ts : List Spot) : Except Fault (Header × List Spot) := do
  let (header, ts) := indicators ts
  if header.increment = some 0 || !endsWord (next ts) then .error .yaml
  else do
    let ts ← skipHeaderLine ts
    .ok (header, ts)

/-! ## Lines -/

/-- The empty lines before a line that is indented by at least `indent`. -/
def emptyLines (indent : Nat) : List Spot → List Char × List Spot
  | [] => ([], [])
  | s :: rest =>
      if (s.char = ' ' && s.column < indent) || isHalfBreak s rest then emptyLines indent rest
      else if isBreak s.char then
        let (breaks, rest) := emptyLines indent rest
        (normalBreak s.char :: breaks, rest)
      else ([], s :: rest)

/-- The empty lines at the start of a block scalar, and the greatest indentation up to its first
line. -/
def leadingLines : List Spot → List Char × Nat × List Spot
  | [] => ([], 0, [])
  | s :: rest =>
      if s.char = ' ' then
        let (breaks, indent, rest) := leadingLines rest
        (breaks, max indent (s.column + 1), rest)
      else if isHalfBreak s rest then leadingLines rest
      else if isBreak s.char then
        let (breaks, indent, rest) := leadingLines rest
        (normalBreak s.char :: breaks, indent, rest)
      else ([], 0, s :: rest)

structure Lines where
  text : List Char
  /-- The break of the last line. -/
  lastBreak : List Char
  /-- The breaks of empty lines after it. -/
  trailing : List Char

def isAtLine (indent : Nat) (ts : List Spot) : Bool :=
  column ts == indent && next ts ≠ endMark

/-- What stands between two lines, apart from the empty lines between them. -/
def joint (isFolded startsBlank nextBlank : Bool) (lineBreak breaks : List Char) : List Char :=
  if isFolded && lineBreak == ['\n'] && !startsBlank && !nextBlank then
    if breaks.isEmpty then [' '] else []
  else lineBreak

def readLines (isFolded : Bool) (indent : Nat) : Nat → List Spot → Lines × List Spot
  | 0, ts => (⟨[], [], []⟩, ts)
  | fuel + 1, ts =>
      let (line, rest) := stretch (!endsLine ·) ts
      let (lineBreak, rest) := match lineBreak? rest with
        | some (b, rest) => ([b], rest)
        | none => ([], rest)
      let (breaks, rest) := emptyLines indent rest
      if isAtLine indent rest then
        let between := joint isFolded (isBlank (next ts)) (isBlank (next rest)) lineBreak breaks
        let (more, rest) := readLines isFolded indent fuel rest
        ({ more with text := line ++ between ++ breaks ++ more.text }, rest)
      else (⟨line, lineBreak, breaks⟩, rest)

def Lines.textWith (lines : Lines) : Ending → List Char
  | .strip => lines.text
  | .clip => lines.text ++ lines.lastBreak
  | .keep => lines.text ++ lines.lastBreak ++ lines.trailing

/-- The empty lines at the start of a block scalar and the indentation of its lines. `least` is the
least they may be indented. -/
def start (least : Nat) (header : Header) (ts : List Spot) : List Char × Nat × List Spot :=
  match header.increment with
  | none =>
      let (breaks, indent, ts) := leadingLines ts
      (breaks, max least indent, ts)
  | some n =>
      let indent := least + n - 1
      let (breaks, ts) := emptyLines indent ts
      (breaks, indent, ts)

/-- A block scalar, from the character that starts it on, inside a node that is indented by
`outer`, and what follows it. -/
def read (isFolded : Bool) (outer : Int) (ts : List Spot) :
    Except Fault (List Char × List Spot) := do
  let (header, ts) ← readHeader (ts.drop 1)
  let (breaks, indent, ts) := start (max 1 (outer + 1).toNat) header ts
  if isAtLine indent ts then
    let (lines, ts) := readLines isFolded indent ts.length ts
    .ok (breaks ++ lines.textWith header.ending, ts)
  else .ok ((Lines.mk [] [] breaks).textWith header.ending, ts)

end Raml.Yaml.Block
