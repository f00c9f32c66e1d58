/-! # Characters in place

YAML gives a meaning to where a character stands: indentation nests, and a key
has to stay on its line. A text is therefore read as a list of characters with
their places, closed by a mark for the end. No readable text holds the mark.
-/

namespace Raml.Yaml

/-- A character with its line and column and its index in the text, all from zero. -/
structure Spot where
  char : Char
  line : Nat
  column : Nat
  index : Nat

def endMark : Char := '\x00'

/-! ## Classes of characters -/

def isPrintable (c : Char) : Bool :=
  let n := c.toNat
  n == 0x09 || n == 0x0a || n == 0x0d || (0x20 ≤ n && n ≤ 0x7e) || n == 0x85 ||
    (0xa0 ≤ n && n ≤ 0xd7ff) || (0xe000 ≤ n && n ≤ 0xfffd) || 0x10000 ≤ n

def isBreak (c : Char) : Bool :=
  c = '\n' || c = '\r' || c.toNat = 0x85 || c.toNat = 0x2028 || c.toNat = 0x2029

def endsLine (c : Char) : Bool :=
  isBreak c || c = endMark

def isBlank (c : Char) : Bool :=
  c = ' ' || c = '\t'

def endsIndicator (c : Char) : Bool :=
  endsLine c || isBlank c

/-- Whether a tag or a directive may stand before the character; a tab does not end them. -/
def endsWord (c : Char) : Bool :=
  endsLine c || c = ' '

def isNameChar (c : Char) : Bool :=
  c.isAlphanum || c = '-' || c = '_'

/-! ## Places -/

/-- The spots of characters from a place on. A return before a line feed does not break the line
by itself, and a byte order mark takes no column. -/
def Spot.ofChars (line column index : Nat) : List Char → List Spot
  | [] => [⟨endMark, line, column, index⟩]
  | c :: rest =>
      let spot : Spot := ⟨c, line, column, index⟩
      if isBreak c && !(c = '\r' && rest.head? = some '\n') then
        spot :: ofChars (line + 1) 0 (index + 1) rest
      else if c.toNat = 0xfeff then spot :: ofChars line column (index + 1) rest
      else spot :: ofChars line (column + 1) (index + 1) rest

def Spot.ofText (s : String) : List Spot :=
  Spot.ofChars 0 0 0 s.toList

/-! ## Looking ahead -/

def next (ts : List Spot) : Char :=
  match ts with
  | [] => endMark
  | s :: _ => s.char

def nextAt (distance : Nat) (ts : List Spot) : Char :=
  next (ts.drop distance)

def column (ts : List Spot) : Nat :=
  match ts with
  | [] => 0
  | s :: _ => s.column

def chars (ts : List Spot) : List Char :=
  ts.map (·.char)

def stretch (inClass : Char → Bool) (ts : List Spot) : List Char × List Spot :=
  (chars (ts.takeWhile fun s => inClass s.char), ts.dropWhile fun s => inClass s.char)

def skipSpaces (ts : List Spot) : List Spot :=
  ts.dropWhile fun s => s.char = ' '

def skipLine (ts : List Spot) : List Spot :=
  ts.dropWhile fun s => !endsLine s.char

/-! ## Line breaks -/

/-- A line break as it counts in a text: the separators of lines and paragraphs stay, all others
are line feeds. -/
def normalBreak (c : Char) : Char :=
  if c.toNat = 0x2028 || c.toNat = 0x2029 then c else '\n'

def isHalfBreak (s : Spot) (rest : List Spot) : Bool :=
  s.char = '\r' && next rest = '\n'

def lineBreak? (ts : List Spot) : Option (Char × List Spot) :=
  match ts with
  | [] => none
  | s :: rest =>
      if isHalfBreak s rest then some ('\n', rest.drop 1)
      else if isBreak s.char then some (normalBreak s.char, rest)
      else none

/-- Whether three characters that mark a document's start or end come next. -/
def isDocumentMarker (ts : List Spot) : Bool :=
  let mark := chars (ts.take 3)
  (mark == ['-', '-', '-'] || mark == ['.', '.', '.']) && endsIndicator (nextAt 3 ts)

/-- What a line break and the empty lines after it stand for where lines are folded: a single line
feed is a space. -/
def folded (lineBreak : Char) (breaks : List Char) : List Char :=
  (if lineBreak ≠ '\n' then [lineBreak] else if breaks.isEmpty then [' '] else []) ++ breaks

end Raml.Yaml
