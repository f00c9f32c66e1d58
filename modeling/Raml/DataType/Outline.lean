import Raml.DataType.Basic
import Raml.Declaration
import Raml.Json.Reader
import Raml.Text.Blank
import Raml.Text.Pieces

/-! # Outlines of types

A declaration says which kind of type it stands for and which further
declarations are nested in it. The outline of a declaration holds just that,
before any facet is read and any nested declaration is looked at.

A type expression is a built-in word, the name of a declared type, an item
followed by `[]`, or members separated by `|`. A question mark at its end, or at
the end of the declared name, makes a property optional. A text that starts
with `<` or with a brace is an inline schema and no expression.
-/

namespace Raml

def rootElementName : String := "__ROOT_ELEMENT__"

/-- The built-in words that stand for a type without nested ones. -/
inductive ScalarWord
  | any
  | string
  | number
  | integer
  | boolean
  | nil
  | file
  | temporal (kind : TemporalKind)
deriving DecidableEq

def ScalarWord.ofText? : String → Option ScalarWord
  | "" | "any" => some .any
  | "string" => some .string
  | "number" => some .number
  | "integer" => some .integer
  | "boolean" => some .boolean
  | "nil" => some .nil
  | "file" => some .file
  | "date-only" => some (.temporal .dateOnly)
  | "time-only" => some (.temporal .timeOnly)
  | "datetime-only" => some (.temporal .dateTimeOnly)
  | "datetime" => some (.temporal .dateTime)
  | _ => none

/-- Which kind of type a declaration stands for, with the declarations nested in it. -/
inductive Shape
  | scalar (word : ScalarWord)
  | object (properties : List (String × Value))
  | array (items : Option (String × Value))
  | union (members : List String)
  | reference (target : String)
  | json (schema : Mapping)
  | xml (schema : String)
  /-- A schema that was decoded elsewhere; it has no other facets. -/
  | embedded (schema : Value)

/-- The name a type is reported under, the declaration it keeps, and its shape. -/
structure Outline where
  name : String
  declaration : Mapping
  shape : Shape

def Shape.nested : Shape → List (String × Value)
  | .object properties => properties
  | .array items => items.toList
  | .union members => members.map fun m => (m, .text m)
  | _ => []

namespace Outline

def isSchema (expression : String) : Bool :=
  match Text.dropBlank expression.toList with
  | c :: _ => c = '<' || c = '\x7b'
  | [] => false

/-- Whether a declared name or a type expression marks a property as optional. -/
def isOptional (name expression : String) : Bool :=
  Text.endsIn '?' name || (!isSchema expression && Text.endsIn '?' (Text.trimEnd expression))

/-- The mapping with a field, unless it has it. -/
def withDefault (d : Mapping) (key : String) (v : Value) : Mapping :=
  if d.hasField key then d else d.setField key v

/-- The name, the declaration and the type expression without their marks of being optional, which
becomes a facet. -/
def settleOptional (name : String) (d : Mapping) (expression : String) :
    String × Mapping × String :=
  if isOptional name expression then
    let d := withDefault d "required" (.bool false)
    let name := Text.removeSuffix '?' name
    if isSchema expression then (name, d, expression)
    else
      let expression := Text.removeSuffix '?' (Text.trimEnd expression)
      (name, d.setField "type" (.text expression), expression)
  else (name, d, expression)

def readSchema (source : String) : Except Fault Mapping :=
  match Json.read source with
  | .ok (.map schema) => .ok schema
  | .ok _ => .error (.schemaRules rootElementName)
  | .error (.malformed problem offset) =>
      .error (.schemaText rootElementName (Json.located source problem offset))
  | .error .tooManyDigits => .error .badValue

def readProperties (name : String) (d : Mapping) : Except Fault (List (String × Value)) :=
  let properties := d.field "properties"
  if properties.isEmpty then .ok []
  else
    match properties with
    | .map entries => .ok (entries.map fun e => (e.1.shown, e.2))
    | _ => .error (.properties name)

def readItems (name : String) (d : Mapping) : Option (String × Value) :=
  match d.field "items" with
  | .null => none
  | .text expression => some (expression, .text expression)
  | items => some (name ++ "Item", items)

def splitUnion (expression : String) : List String :=
  (Text.splitAt '|' expression).map Text.trim

/-- The shape of a type expression that is no built-in word. -/
def ofExpression (expression : String) : Shape :=
  if expression.toList.contains '|' then .union (splitUnion expression)
  else
    match Text.beforeLast? ['[', ']'] expression.toList with
    | some item =>
        let item := Text.trim (String.ofList item)
        .array (some (item, .text item))
    | none => .reference expression

def ofText (name : String) (d : Mapping) (expression : String) : Except Fault Outline := do
  let (name, d, expression) := settleOptional name d expression
  let word := Text.trim expression
  match ScalarWord.ofText? word with
  | some scalar => .ok ⟨name, d, .scalar scalar⟩
  | none =>
      if word = "object" then
        let properties ← readProperties name d
        .ok ⟨name, d, .object properties⟩
      else if word = "array" then .ok ⟨name, d, .array (readItems name d)⟩
      else if Text.startsIn '<' word then .ok ⟨rootElementName, d, .xml expression⟩
      else if Text.startsIn '\x7b' word then
        let schema ← readSchema expression
        .ok ⟨rootElementName, d, .json schema⟩
      else .ok ⟨name, d, ofExpression word⟩

def ofDefinition (name : String) (definition : Value) : Except Fault Outline :=
  match definition with
  | .embedded schema => .ok ⟨"schema", [(.text "type", schema)], .embedded schema⟩
  | definition => do
      let d ← Declaration.normalize definition
      match d.field "type" with
      | .map schema => .ok ⟨rootElementName, d, .json schema⟩
      | .text expression => ofText name d expression
      | other => .error (.typeExpression name other)

end Outline

end Raml
