import Raml.Yaml.Spot

/-! # Plain scalars

A plain scalar has no quotes. It ends before a colon or a number sign that has
a space on the right side of it, and inside brackets before the delimiters. It
may go on over several lines, which are folded.
-/

namespace Raml.Yaml.Plain

/-- Whether the character is a bracket or the comma between items in brackets. -/
def isFlowDelimiter (c : Char) : Bool :=
  c = ',' || c = '[' || c = ']' || c = '\x7b' || c = '\x7d'

def endsBefore (inFlow : Bool) (c after : Char) : Bool :=
  endsIndicator c ||
    (c = ':' && (endsIndicator after || (inFlow && isFlowDelimiter after))) ||
    (inFlow && (isFlowDelimiter c || c = '?'))

def startsWith (inFlow : Bool) (c after : Char) : Bool :=
  !(endsIndicator c || "-?:,[]\x7b\x7d#&*!|>'\"%@`".toList.contains c) ||
    (!endsIndicator after && (c = '-' || (!inFlow && (c = '?' || c = ':'))))

def word (inFlow : Bool) : List Spot → List Char × List Spot
  | [] => ([], [])
  | s :: rest =>
      if endsBefore inFlow s.char (next rest) then ([], s :: rest)
      else
        let (cs, rest) := word inFlow rest
        (s.char :: cs, rest)

def emptyLines : List Spot → List Char × Bool × List Spot
  | [] => ([], false, [])
  | s :: rest =>
      if s.char = ' ' || isHalfBreak s rest then emptyLines rest
      else if isBreak s.char then
        if isDocumentMarker rest then ([], true, rest)
        else
          let (breaks, marked, rest) := emptyLines rest
          (normalBreak s.char :: breaks, marked, rest)
      else ([], false, s :: rest)

structure Gap where
  /-- What the gap counts as; nothing if the scalar cannot go on after it. -/
  text : List Char
  /-- Whether there is a line break in the gap. -/
  isBroken : Bool

def gap (ts : List Spot) : Gap × List Spot :=
  let (spaces, ts) := stretch (· = ' ') ts
  match lineBreak? ts with
  | none => (⟨spaces, false⟩, ts)
  | some (lineBreak, ts) =>
      if isDocumentMarker ts then (⟨[], true⟩, ts)
      else
        let (breaks, marked, ts) := emptyLines ts
        (⟨if marked then [] else folded lineBreak breaks, true⟩, ts)

/-- The rest of a plain scalar after a gap. `indent` is the least column of a line that the scalar
goes on with. The result says whether the scalar is followed by a line break. -/
def readWithin (inFlow : Bool) (indent : Int) :
    Nat → Gap → List Spot → List Char × Bool × List Spot
  | 0, before, ts => ([], before.isBroken, ts)
  | fuel + 1, before, ts =>
      let (cs, rest) := word inFlow ts
      if next ts = '#' || cs.isEmpty then ([], before.isBroken, ts)
      else
        let (after, rest) := gap rest
        if after.text.isEmpty || next rest = '#' || (!inFlow && column rest < indent) then
          (before.text ++ cs, after.isBroken, rest)
        else
          let (more, isBroken, rest) := readWithin inFlow indent fuel after rest
          (before.text ++ cs ++ more, isBroken, rest)

/-- A plain scalar, whether a line break follows it, and the rest. -/
def read (inFlow : Bool) (indent : Int) (ts : List Spot) : List Char × Bool × List Spot :=
  readWithin inFlow indent ts.length ⟨[], false⟩ ts

end Raml.Yaml.Plain
