import Raml.Calendar.Layout
import Raml.Text.Quoted
import Raml.Value.Basic

/-! # Texts of values

Messages show a value in one of two ways: `shown` writes a text as it is, and
`inspected` writes it between quotes. Both write the values inside a list or a
mapping as inspected.
-/

namespace Raml

namespace Instant

def inspectedOffset (offset : Int) : String :=
  let days := offset.fdiv (86400 * oneSecond)
  let rest := offset.fmod (86400 * oneSecond)
  let part (word : String) (n : Int) : List String := if n = 0 then [] else [word ++ toString n]
  if offset = 0 then "datetime.timezone.utc"
  else
    "datetime.timezone(datetime.timedelta(" ++
      ", ".intercalate (part "days=" days ++ part "seconds=" (rest / oneSecond) ++
        part "microseconds=" (rest % oneSecond)) ++ "))"

def inspected (t : Instant) : String :=
  let clock :=
    if t.micro ≠ 0 then [t.hour, t.minute, t.second, t.micro]
    else if t.second ≠ 0 then [t.hour, t.minute, t.second]
    else [t.hour, t.minute]
  let numbers := ([t.date.year, t.date.month, t.date.day] ++ clock).map toString
  let zone := match t.offset with
    | none => []
    | some offset => ["tzinfo=" ++ inspectedOffset offset]
  "datetime.datetime(" ++ ", ".intercalate (numbers ++ zone) ++ ")"

end Instant

namespace Value

def kindWord : Value → String
  | .null => "NoneType"
  | .bool _ => "bool"
  | .int _ => "int"
  | .float _ => "float"
  | .text _ => "str"
  | .bytes _ => "bytes"
  | .list _ => "list"
  | .tuple _ => "tuple"
  | .map _ => "dict"
  | .set _ => "set"
  | .date _ => "date"
  | .instant _ => "datetime"
  | .embedded _ => "EmbeddedSchema"

def inspectedTuple : List String → String
  | [item] => "(" ++ item ++ ",)"
  | items => "(" ++ ", ".intercalate items ++ ")"

def inspectedSet : List String → String
  | [] => "set()"
  | members => "\x7b" ++ ", ".intercalate members ++ "\x7d"

mutual

def inspected : Value → String
  | .null => "None"
  | .bool b => if b then "True" else "False"
  | .int n => toString n
  | .float x => x.text
  | .text s => Text.quoted s
  | .bytes b => Text.quotedBytes b
  | .list items => "[" ++ ", ".intercalate (inspectedItems items) ++ "]"
  | .tuple items => inspectedTuple (inspectedItems items)
  | .map entries => "\x7b" ++ ", ".intercalate (inspectedEntries entries) ++ "\x7d"
  | .set members => inspectedSet (inspectedItems members)
  | .date d =>
      "datetime.date(" ++ toString d.year ++ ", " ++ toString d.month ++ ", " ++
        toString d.day ++ ")"
  | .instant t => t.inspected
  | .embedded schema => "EmbeddedSchema(content=" ++ inspected schema ++ ")"
termination_by structural v => v

def inspectedItems : List Value → List String
  | [] => []
  | item :: rest => inspected item :: inspectedItems rest
termination_by structural items => items

def inspectedEntries : List (Value × Value) → List String
  | [] => []
  | entry :: rest => inspectedEntry entry :: inspectedEntries rest
termination_by structural entries => entries

def inspectedEntry : Value × Value → String
  | (k, v) => inspected k ++ ": " ++ inspected v
termination_by structural entry => entry

end

def shown : Value → String
  | .text s => s
  | .date d => d.isoText
  | .instant t => t.isoText ' '
  | v => v.inspected

end Value

end Raml
