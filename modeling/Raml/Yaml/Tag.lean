import Raml.Yaml.Scalar.Timestamp

/-! # Tags

The tag of a node says what kind of value it is. A plain scalar without a tag
has the tag of the first form that it has; everything else is a text.
-/

namespace Raml.Yaml

inductive Tag
  | null
  | bool
  | int
  | float
  | binary
  | timestamp
  | omap
  | pairs
  | set
  | text
  | seq
  | map
  /-- The key of a mapping whose entries are laid under those around it. -/
  | merge
  /-- The key of the usual value of a mapping. -/
  | value
  | unknown
deriving DecidableEq

namespace Tag

def start : String := "tag:yaml.org,2002:"

def words : List (String × Tag) := [
  ("null", null), ("bool", bool), ("int", int), ("float", float), ("binary", binary),
  ("timestamp", timestamp), ("omap", omap), ("pairs", pairs), ("set", set), ("str", text),
  ("seq", seq), ("map", map), ("merge", merge), ("value", value)]

def ofName (name : String) : Tag :=
  match words.find? fun w => start ++ w.1 == name with
  | some (_, tag) => tag
  | none => unknown

def truths : List (String × Bool) :=
  [("yes", true), ("no", false), ("true", true), ("false", false), ("on", true), ("off", false)]

/-- The ways to write a word: in lower case, in upper case, or with a capital. -/
def spellings (word : String) : List String :=
  match word.toList with
  | [] => [word]
  | c :: rest =>
      [word, String.ofList (c.toUpper :: rest), String.ofList (word.toList.map Char.toUpper)]

def isBool (s : String) : Bool :=
  truths.any fun t => (spellings t.1).contains (String.ofList (formChars s))

/-- Whether a scalar is a word for null, or empty. -/
def isNull (s : String) : Bool :=
  s.isEmpty || ("~" :: spellings "null").contains (String.ofList (formChars s))

def ofPlain (s : String) : Tag :=
  let word := String.ofList (formChars s)
  if isBool s then bool
  else if isFloat s then float
  else if isInteger s then int
  else if isNull s then null
  else if isTimestamp s then timestamp
  else if word = "<<" then merge
  else if word = "=" then value
  else text

end Tag

end Raml.Yaml
