import Raml.Text.Digit
import Raml.Text.Surrogate
import Raml.Value.Basic

/-! # Reading JSON

A JSON text is read from left to right; the first thing that cannot be read is
reported with the place where it stands. Beyond the standard, `NaN`, `Infinity`
and `-Infinity` are numbers, and half of a surrogate pair may stand alone.
Numbers without a fraction and an exponent are integers of any size up to 4300
digits.
-/

namespace Raml

namespace Json

inductive Problem
  | expectingValue
  | expectingComma
  | expectingColon
  | expectingName
  | extraData
  | unterminatedText
  | controlCharacter
  | badEscape
  | badUnicodeEscape
  | byteOrderMark
deriving DecidableEq

def Problem.message : Problem → String
  | .expectingValue => "Expecting value"
  | .expectingComma => "Expecting ',' delimiter"
  | .expectingColon => "Expecting ':' delimiter"
  | .expectingName => "Expecting property name enclosed in double quotes"
  | .extraData => "Extra data"
  | .unterminatedText => "Unterminated string starting at"
  | .controlCharacter => "Invalid control character at"
  | .badEscape => "Invalid \\escape"
  | .badUnicodeEscape => "Invalid \\uXXXX escape"
  | .byteOrderMark => "Unexpected UTF-8 BOM (decode using utf-8-sig)"

/-- Why a text is not read. -/
inductive Failure
  /-- A problem, `offset` characters into the text. -/
  | malformed (problem : Problem) (offset : Nat)
  /-- An integer has too many digits. -/
  | tooManyDigits

/-- Why a part of a text is not read; `remaining` counts the characters from the problem on. -/
inductive Stop
  | malformed (problem : Problem) (remaining : Nat)
  | tooManyDigits

/-- The most digits an integer may have. -/
def digitLimit : Nat := 4300

def isSpace (c : Char) : Bool :=
  c = ' ' || c = '\t' || c = '\n' || c = '\r'

def skipSpace (cs : List Char) : List Char :=
  cs.dropWhile isSpace

/-! ## Texts -/

def hex4? : List Char → Option Nat
  | [a, b, c, d] => do
      let a ← Text.hexValue? a
      let b ← Text.hexValue? b
      let c ← Text.hexValue? c
      let d ← Text.hexValue? d
      some (((a * 16 + b) * 16 + c) * 16 + d)
  | _ => none

def escaped? : Char → Option Char
  | '"' => some '"'
  | '\\' => some '\\'
  | '/' => some '/'
  | 'b' => some '\x08'
  | 'f' => some '\x0c'
  | 'n' => some '\n'
  | 'r' => some '\r'
  | 't' => some '\t'
  | _ => none

/-- The character written by `\u` and four digits, of which `cs` are the characters after the
letter, and what follows; two escapes may write one character. -/
def readUnicode (cs : List Char) : Except Stop (Char × List Char) :=
  let digits := cs.take 4
  let rest := cs.drop 4
  if rest.isEmpty then .error (.malformed .badUnicodeEscape (cs.length + 1))
  else
    match hex4? digits with
    | none => .error (.malformed .badUnicodeEscape (rest.length + 5))
    | some code =>
        if 0xD800 ≤ code && code < 0xDC00 then
          match rest with
          | '\\' :: 'u' :: more =>
              let rest' := more.drop 4
              if rest'.isEmpty then .ok (Text.charOfCode code, rest)
              else
                match hex4? (more.take 4) with
                | none => .error (.malformed .badUnicodeEscape (rest'.length + 5))
                | some low =>
                    if 0xDC00 ≤ low && low < 0xE000 then
                      .ok (Text.charOfCode (0x10000 + (code - 0xD800) * 0x400 + (low - 0xDC00)), rest')
                    else .ok (Text.charOfCode code, rest)
          | _ => .ok (Text.charOfCode code, rest)
        else .ok (Text.charOfCode code, rest)

/-- The characters of a text up to its closing quote. `start` counts the characters from the
opening quote on; `fuel` is at least the number of characters left. -/
def readText (start : Nat) : Nat → List Char → Except Stop (List Char × List Char)
  | 0, _ => .error (.malformed .unterminatedText start)
  | fuel + 1, cs =>
      match cs with
      | [] => .error (.malformed .unterminatedText start)
      | '"' :: rest => .ok ([], rest)
      | '\\' :: [] => .error (.malformed .unterminatedText start)
      | '\\' :: 'u' :: rest => do
          let (c, rest) ← readUnicode rest
          let (tail, rest) ← readText start fuel rest
          .ok (c :: tail, rest)
      | '\\' :: c :: rest =>
          match escaped? c with
          | none => .error (.malformed .badEscape (rest.length + 2))
          | some c => do
              let (tail, rest) ← readText start fuel rest
              .ok (c :: tail, rest)
      | c :: rest =>
          if c.toNat ≤ 0x1f then .error (.malformed .controlCharacter (rest.length + 1))
          else do
            let (tail, rest) ← readText start fuel rest
            .ok (c :: tail, rest)

/-! ## Numbers -/

/-- The digits of a whole number without leading zeros, and what follows. -/
def splitWhole? : List Char → Option (List Char × List Char)
  | '0' :: rest => some (['0'], rest)
  | cs =>
      let digits := cs.takeWhile Char.isDigit
      if digits.isEmpty then none else some (digits, cs.dropWhile Char.isDigit)

def splitFraction : List Char → List Char × List Char
  | '.' :: rest =>
      let digits := rest.takeWhile Char.isDigit
      if digits.isEmpty then ([], '.' :: rest) else (digits, rest.dropWhile Char.isDigit)
  | cs => ([], cs)

def splitExponent (cs : List Char) : Option Int × List Char :=
  match cs with
  | c :: rest =>
      if c = 'e' || c = 'E' then
        let (negative, body) := Binary64.splitSign rest
        let digits := body.takeWhile Char.isDigit
        if digits.isEmpty then (none, cs)
        else
          let n : Int := Binary64.digitsValue digits
          (some (if negative then -n else n), body.dropWhile Char.isDigit)
      else (none, cs)
  | [] => (none, cs)

def readNumber (cs : List Char) : Except Stop (Value × List Char) :=
  let (negative, body) := match cs with
    | '-' :: rest => (true, rest)
    | _ => (false, cs)
  match splitWhole? body with
  | none => .error (.malformed .expectingValue cs.length)
  | some (whole, rest) =>
      let (fraction, rest) := splitFraction rest
      let (exponent, rest) := splitExponent rest
      if fraction.isEmpty && exponent.isNone then
        if digitLimit < whole.length then .error .tooManyDigits
        else
          let n : Int := Binary64.digitsValue whole
          .ok (.int (if negative then -n else n), rest)
      else
        let digits := Binary64.digitsValue (whole ++ fraction)
        .ok (.float (.ofDecimal negative digits (exponent.getD 0 - fraction.length)), rest)

/-! ## Values -/

def afterWord? (word : String) (cs : List Char) : Option (List Char) :=
  if word.toList.isPrefixOf cs then some (cs.drop word.length) else none

/-- What is no number in a document; all its occurrences are one object. -/
def sharedNan : Binary64 := .notNumber (some 0)

def words : List (String × Value) :=
  [("null", .null), ("true", .bool true), ("false", .bool false), ("NaN", .float sharedNan),
    ("Infinity", .float (.infinite false)), ("-Infinity", .float (.infinite true))]

/-- The word at the start of a text, or else the number. -/
def readAtom (cs : List Char) : Except Stop (Value × List Char) :=
  match words.findSome? fun (word, v) => (afterWord? word cs).map (v, ·) with
  | some found => .ok found
  | none => readNumber cs

mutual

/-- The value at the start of a text. `fuel` is more than twice the number of characters. -/
def readValue : Nat → List Char → Except Stop (Value × List Char)
  | 0, cs => .error (.malformed .expectingValue cs.length)
  | fuel + 1, cs =>
      match cs with
      | [] => .error (.malformed .expectingValue 0)
      | '"' :: rest => do
          let (text, rest) ← readText cs.length cs.length rest
          .ok (.text (String.ofList text), rest)
      | '[' :: rest =>
          match skipSpace rest with
          | ']' :: rest => .ok (.list [], rest)
          | rest => do
              let (items, rest) ← readItems fuel rest
              .ok (.list items, rest)
      | '\x7b' :: rest =>
          match skipSpace rest with
          | '\x7d' :: rest => .ok (.map [], rest)
          | rest => do
              let (entries, rest) ← readEntries fuel rest
              .ok (.map (Table.ofList entries), rest)
      | _ => readAtom cs

def readItems : Nat → List Char → Except Stop (List Value × List Char)
  | 0, cs => .error (.malformed .expectingValue cs.length)
  | fuel + 1, cs => do
      let (item, rest) ← readValue fuel cs
      match skipSpace rest with
      | ']' :: rest => .ok ([item], rest)
      | ',' :: rest => do
          let (items, rest) ← readItems fuel (skipSpace rest)
          .ok (item :: items, rest)
      | rest => .error (.malformed .expectingComma rest.length)

def readEntries : Nat → List Char → Except Stop (List (Value × Value) × List Char)
  | 0, cs => .error (.malformed .expectingName cs.length)
  | fuel + 1, cs =>
      match cs with
      | '"' :: rest => do
          let (key, rest) ← readText cs.length cs.length rest
          match skipSpace rest with
          | ':' :: rest => do
              let (v, rest) ← readValue fuel (skipSpace rest)
              let entry := (Value.text (String.ofList key), v)
              match skipSpace rest with
              | '\x7d' :: rest => .ok ([entry], rest)
              | ',' :: rest => do
                  let (entries, rest) ← readEntries fuel (skipSpace rest)
                  .ok (entry :: entries, rest)
              | rest => .error (.malformed .expectingComma rest.length)
          | rest => .error (.malformed .expectingColon rest.length)
      | _ => .error (.malformed .expectingName cs.length)

end

def readAll (cs : List Char) : Except Stop Value := do
  if cs.head? = some '\uFEFF' then throw (.malformed .byteOrderMark cs.length)
  let (v, rest) ← readValue (2 * cs.length + 2) (skipSpace cs)
  match skipSpace rest with
  | [] => .ok v
  | rest => .error (.malformed .extraData rest.length)

def read (text : String) : Except Failure Value :=
  let cs := text.toList
  match readAll cs with
  | .ok v => .ok v
  | .error (.malformed problem remaining) => .error (.malformed problem (cs.length - remaining))
  | .error .tooManyDigits => .error .tooManyDigits

def located (text : String) (problem : Problem) (offset : Nat) : String :=
  let earlier := text.toList.take offset
  let line := (earlier.filter (· = '\n')).length + 1
  let column := (earlier.reverse.takeWhile (· ≠ '\n')).length + 1
  problem.message ++ ": line " ++ toString line ++ " column " ++ toString column ++
    " (char " ++ toString offset ++ ")"

end Json

end Raml
