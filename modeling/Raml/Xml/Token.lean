import Raml.Text.Digit
import Raml.Xml.Name

/-! # Parts of XML documents

Readers for the parts that stand alone: blanks, quoted texts, comments,
instructions, sections of plain text, and references. Each gives what follows
the part, or nothing when the part is not well formed.
-/

namespace Raml.Xml

def after (word : String) (cs : List Char) : Option (List Char) :=
  if word.toList.isPrefixOf cs then some (cs.drop word.length) else none

def withLineFeeds : List Char → List Char
  | '\r' :: '\n' :: rest => '\n' :: withLineFeeds rest
  | '\r' :: rest => '\n' :: withLineFeeds rest
  | c :: rest => c :: withLineFeeds rest
  | [] => []

def skipSpace (cs : List Char) : List Char :=
  cs.dropWhile isSpace

/-- What follows at least one blank. -/
def needSpace : List Char → Option (List Char)
  | c :: rest => if isSpace c then some (skipSpace rest) else none
  | [] => none

/-- A text of legal characters up to a marker, and what follows the marker. -/
def upTo (marker : List Char) : List Char → Option (List Char × List Char)
  | [] => none
  | c :: rest =>
      if marker.isPrefixOf (c :: rest) then some ([], (c :: rest).drop marker.length)
      else if isLegal c then (upTo marker rest).map fun p => (c :: p.1, p.2)
      else none

def readQuoted : List Char → Option (List Char × List Char)
  | '"' :: rest => upTo ['"'] rest
  | '\'' :: rest => upTo ['\''] rest
  | _ => none

/-- What follows a comment, whose start is read already. -/
def afterComment (cs : List Char) : Option (List Char) :=
  match upTo ['-', '-'] cs with
  | some (_, '>' :: rest) => some rest
  | _ => none

def isReserved (name : List Char) : Bool :=
  name.map Char.toLower = "xml".toList

/-- What follows an instruction, whose start is read already. -/
def afterInstruction (cs : List Char) : Option (List Char) := do
  let (name, rest) ← readName cs
  if isReserved name then none
  match after "?>" rest with
  | some rest => some rest
  | none => do
      let rest ← needSpace rest
      (upTo "?>".toList rest).map (·.2)

def skipMisc : Nat → List Char → Option (List Char)
  | 0, _ => none
  | fuel + 1, cs =>
      let cs := skipSpace cs
      match after "<!--" cs, after "<?" cs with
      | some rest, _ => (afterComment rest).bind (skipMisc fuel)
      | _, some rest => (afterInstruction rest).bind (skipMisc fuel)
      | none, none => some cs

/-! ## References -/

inductive Reference
  | character (c : Char)
  | entity (name : List Char)

/-- A reference, whose start is read already, and what follows it. -/
def readReference (cs : List Char) : Option (Reference × List Char) :=
  let close (code : Nat) (digits rest : List Char) : Option (Reference × List Char) :=
    match rest with
    | ';' :: rest =>
        if digits ≠ [] ∧ isLegalCode code then some (.character (.ofNat code), rest) else none
    | _ => none
  match cs with
  | '#' :: 'x' :: rest =>
      let digits := rest.takeWhile Text.isHexDigit
      close (Text.numberOf 16 digits) digits (rest.dropWhile Text.isHexDigit)
  | '#' :: rest =>
      let digits := rest.takeWhile Char.isDigit
      close (Text.numberOf 10 digits) digits (rest.dropWhile Char.isDigit)
  | cs => do
      let (name, rest) ← readName cs
      match rest with
      | ';' :: rest => some (.entity name, rest)
      | _ => none

def predefined : List (List Char × Char) :=
  [("lt", '<'), ("gt", '>'), ("amp", '&'), ("apos", '\''), ("quot", '"')].map fun e =>
    (e.1.toList, e.2)

/-! ## The declaration of the document -/

/-- The value of a setting of the declaration, if it stands there, and what follows; the value
satisfies a condition. -/
def readSetting (name : String) (accept : List Char → Bool) (cs : List Char) :
    Option (List Char × List Char) := do
  let cs ← after name cs
  let cs ← after "=" (skipSpace cs)
  let (value, cs) ← readQuoted (skipSpace cs)
  if accept value then some (value, cs) else none

/-- Whether a value is made of ASCII letters, digits, full stops, hyphens and underscores. -/
def isPlainValue (value : List Char) : Bool :=
  value.all fun c => c.isAlphanum || c = '.' || c = '-' || c = '_'

def isEncoding (value : List Char) : Bool :=
  match value with
  | c :: _ => c.isAlpha && isPlainValue value
  | [] => false

def readOptional (name : String) (accept : List Char → Bool) (cs : List Char) :
    Option (Option (List Char) × List Char) :=
  if (after name (skipSpace cs)).isSome then do
    let (value, cs) ← readSetting name accept (← needSpace cs)
    some (some value, cs)
  else some (none, cs)

/-- Whether the declaration, whose start is read already, says that the document stands alone, and
what follows. -/
def readDeclaration (cs : List Char) : Option (Bool × List Char) := do
  let (_, cs) ← readSetting "version" isPlainValue (← needSpace cs)
  let (_, cs) ← readOptional "encoding" isEncoding cs
  let (alone, cs) ← readOptional "standalone" (fun v => v = "yes".toList || v = "no".toList) cs
  let cs ← after "?>" (skipSpace cs)
  some (alone == some "yes".toList, cs)

end Raml.Xml
