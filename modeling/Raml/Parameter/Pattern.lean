import Raml.Parameter.Basic

/-! # Patterns of parameters

The regular expression that the text of a parameter's value has to match. It is
declared, or follows from the enumeration, from the type, or from the bounds on
the length. A URI template uses it in place of the parameter's placeholder.
-/

namespace Raml

namespace Pattern

/-- The characters that stand for themselves only after a backslash. -/
def specials : List Char := "()[]\x7b\x7d?*+-|^$\\.&~# \t\n\r\x0b\x0c".toList

/-- An expression that matches a text and nothing else. -/
def escape (s : String) : String :=
  String.ofList (s.toList.flatMap fun c => if specials.contains c then ['\\', c] else [c])

end Pattern

namespace Parameter

def days : String := "Mon|Tue|Wed|Thu|Fri|Sat|Sun"

def months : String := "Jan|Feb|Mar|Apr|May|Jun|Jul|Aug|Sep|Oct|Nov|Dec"

def digitsPattern (n : Nat) : String := "\\d\x7b" ++ toString n ++ "\x7d"

/-- The pattern of a date as it stands in a header. -/
def datePattern : String :=
  "^(?:" ++ days ++ "), " ++ digitsPattern 2 ++ " (?:" ++ months ++ ") " ++ digitsPattern 4 ++ " " ++
    digitsPattern 2 ++ ":" ++ digitsPattern 2 ++ ":" ++ digitsPattern 2 ++ " GMT$"

def typePattern? : String → Option String
  | "number" => some "^[-+]?[0-9]*\\.?[0-9]+$"
  | "integer" => some "^[-+]?[0-9]+$"
  | "boolean" => some "^(true|false)$"
  | "date" => some datePattern
  | "file" => some "^(.*)$"
  | _ => none

def memberPattern (members : List Value) : String :=
  "^(" ++ "|".intercalate (members.map fun m => Pattern.escape m.shown) ++ ")$"

def lengthPattern (least most : Option Int) : String :=
  let high := match most with
    | some n => toString n
    | none => ""
  "^([^/]\x7b" ++ toString (least.getD 0) ++ "," ++ high ++ "\x7d)$"

def matchPattern (p : Parameter) : String :=
  -- an empty pattern and an empty enumeration count as none
  match p.pattern.filter (· ≠ ""), p.enum.filter (· matches _ :: _), typePattern? p.type with
  | some pattern, _, _ => pattern
  | none, some members, _ => memberPattern members
  | none, none, some pattern => pattern
  | none, none, none =>
      if p.minLength.isSome || p.maxLength.isSome then lengthPattern p.minLength p.maxLength
      else "^([^/]+)$"

end Parameter

end Raml
