import Raml.Fault
import Raml.Field
import Raml.Yaml.Spot

/-! # Tokens

The smallest parts of a YAML text. Indentation shows as tokens that open and
close a block, so what nests in what is told by the tokens alone. This module
also reads the tokens that are a word or two: directives, anchors and tags.
-/

namespace Raml.Yaml

inductive Directive
  | version (major : Nat)
  /-- A shorthand for the start of tags. -/
  | handle (handle start : String)
  /-- A directive without a meaning here. -/
  | other

inductive Token
  | directive (d : Directive)
  | documentStart
  | documentEnd
  | blockSequenceStart
  | blockMappingStart
  | blockEnd
  | flowSequenceStart
  | flowSequenceEnd
  | flowMappingStart
  | flowMappingEnd
  | blockEntry
  | flowEntry
  | key
  | value
  | alias (name : String)
  | anchor (name : String)
  /-- A tag as it is written: a handle, if there is one, and the rest. -/
  | tag (handle : Option String) (rest : String)
  | scalar (text : String) (isPlain : Bool)
  /-- The end of the text. -/
  | finish
  /-- The place where the text cannot be read on. -/
  | broken (fault : Fault)

namespace Token

/-! ## Names -/

/-- A name and what follows it; a name is not empty. -/
def name (ts : List Spot) : Except Fault (String × List Spot) :=
  let (cs, rest) := stretch isNameChar ts
  if cs.isEmpty then .error .yaml else .ok (String.ofList cs, rest)

def anchorName (ts : List Spot) : Except Fault (String × List Spot) := do
  let (name, ts) ← name (ts.drop 1)
  if endsIndicator (next ts) || "?:,]\x7d%@`".toList.contains (next ts) then .ok (name, ts)
  else .error .yaml

/-! ## Tags -/

def isTagChar (c : Char) : Bool :=
  c.isAlphanum || "-;/?:@&=+$,_.!~*'()[]%".toList.contains c

/-- The characters that a run of percent escapes stands for; `bytes` holds those read so far, the
last one first. -/
def unescape (bytes : List UInt8) : List Char → Option (List Char)
  | '%' :: a :: b :: rest =>
      match Text.hexValue? a, Text.hexValue? b with
      | some m, some n => unescape (UInt8.ofNat (m * 16 + n) :: bytes) rest
      | _, _ => none
  | '%' :: _ => none
  | c :: rest => do
      let before ← Field.decodeUtf8? bytes.reverse
      let after ← unescape [] rest
      some (before.toList ++ c :: after)
  | [] => (Field.decodeUtf8? bytes.reverse).map String.toList

/-- The text of a tag and what follows it; it is not empty. -/
def tagText (ts : List Spot) : Except Fault (String × List Spot) :=
  let (cs, rest) := stretch isTagChar ts
  match unescape [] cs with
  | some text => if cs.isEmpty then .error .yaml else .ok (String.ofList text, rest)
  | none => .error .yaml

/-- The handle of a tag: an exclamation mark, or a name between two of them. -/
def tagHandle (ts : List Spot) : Except Fault (String × List Spot) :=
  if next ts ≠ '!' then .error .yaml
  else
    let (cs, rest) := stretch isNameChar (ts.drop 1)
    if nextAt 1 ts = ' ' then .ok ("!", ts.drop 1)
    else if next rest = '!' then .ok (String.ofList ('!' :: cs ++ ['!']), rest.drop 1)
    else .error .yaml

def tagParts (ts : List Spot) : Except Fault (Token × List Spot) := do
  let c := nextAt 1 ts
  if c = '<' then do
    let (text, ts) ← tagText (ts.drop 2)
    if next ts = '>' then .ok (.tag none text, ts.drop 1) else .error .yaml
  else if endsIndicator c then .ok (.tag none "!", ts.drop 1)
  else
    let (word, _) := stretch (!endsWord ·) (ts.drop 1)
    if word.contains '!' then do
      let (handle, ts) ← tagHandle ts
      let (text, ts) ← tagText ts
      .ok (.tag (some handle) text, ts)
    else do
      let (text, ts) ← tagText (ts.drop 1)
      .ok (.tag (some "!") text, ts)

/-- A tag, from its exclamation mark on. -/
def readTag (ts : List Spot) : Except Fault (Token × List Spot) := do
  let (token, ts) ← tagParts ts
  if endsWord (next ts) then .ok (token, ts) else .error .yaml

/-! ## Directives -/

def digits (ts : List Spot) : Except Fault (Nat × List Spot) :=
  let (cs, rest) := stretch Char.isDigit ts
  if cs.isEmpty then .error .yaml else .ok (Nat.ofDigitChars 10 cs 0, rest)

/-- The version that a directive names, of which the first number counts. -/
def readVersion (ts : List Spot) : Except Fault (Directive × List Spot) := do
  let (major, ts) ← digits (skipSpaces ts)
  if next ts ≠ '.' then .error .yaml
  else do
    let (_, ts) ← digits (ts.drop 1)
    if endsWord (next ts) then .ok (.version major, ts) else .error .yaml

def readHandle (ts : List Spot) : Except Fault (Directive × List Spot) := do
  let (handle, ts) ← tagHandle (skipSpaces ts)
  if next ts ≠ ' ' then .error .yaml
  else do
    let (start, ts) ← tagText (skipSpaces ts)
    if endsWord (next ts) then .ok (.handle handle start, ts) else .error .yaml

def endOfLine (ts : List Spot) : Except Fault (List Spot) :=
  let ts := skipSpaces ts
  let ts := if next ts = '#' then skipLine ts else ts
  if endsLine (next ts) then .ok ts else .error .yaml

def readDirective (ts : List Spot) : Except Fault (Token × List Spot) := do
  let (name, ts) ← name (ts.drop 1)
  if !endsWord (next ts) then .error .yaml
  else do
    let (d, ts) ←
      if name = "YAML" then readVersion ts
      else if name = "TAG" then readHandle ts
      else .ok (.other, skipLine ts)
    let ts ← endOfLine ts
    .ok (.directive d, ts)

end Token

end Raml.Yaml
