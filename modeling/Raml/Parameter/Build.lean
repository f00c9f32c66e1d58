import Raml.DataType.Facets
import Raml.Parameter.Basic
import Raml.Registry.Lookup
import Raml.Text.Blank
import Raml.Value.Reading

/-! # Building parameters

A parameter is declared by a mapping, by a type expression alone, or by nothing
at all. A question mark at the end of the expression marks it as optional. A
named type has to be declared already.
-/

namespace Raml

namespace Parameter

def declaration (key definition : Value) : Except Fault Mapping :=
  match definition with
  | .null => .ok []
  | .text expression => .ok [(.text "type", .text expression)]
  | .map d => .ok d
  | _ => .error (.misplaced (.parameter key.shown))

def expression (key : Value) (d : Mapping) : Except Fault String :=
  let type := d.field "type"
  if type.isEmpty then .ok "string"
  else
    match type with
    | .text expression => .ok expression
    | _ => .error (.parameterType key.shown)

def buildValueType (registry : Option Registry) (key : Value) (d : Mapping) : Traced DataType := do
  let t ← DataType.tracedNamed registry.isSome key (.map d)
  match t.target?, registry with
  | some target, none => Traced.ofExcept (.error (.parameterReference target key.shown))
  | some _, some r => do
      let _ ← (t.resolve r : Except Fault DataType)
      return t
  | none, _ => return t

def read (key : Value) (type : String) (d : Mapping) (valueType : Option DataType) :
    Checked Parameter :=
  Parameter.mk
  <$> Field.given "key" key Field.text?
  <*> Checked.ok type
  <*> Field.readOptional d "displayName" "display_name" Field.text?
  <*> Field.readOptional d "description" "description" Field.text?
  <*> Field.readOptional d "enum" "enum" Field.items?
  <*> Field.readOptional d "pattern" "pattern" Field.text?
  <*> Field.readOptional d "minLength" "min_length" Field.int?
  <*> Field.readOptional d "maxLength" "max_length" Field.int?
  <*> Field.readOptional d "minimum" "minimum" Field.number?
  <*> Field.readOptional d "maximum" "maximum" Field.number?
  <*> Field.read d "example" "example" (some .null) Field.any?
  <*> Field.read d "repeat" "repeat" (some false) Field.truth?
  <*> Field.read d "required" "required" (some false) Field.truth?
  <*> Field.read d "default" "default" (some .null) Field.any?
  <*> (match valueType with
    | some t => .ok (some t)
    | none => Field.readOptional d "value_type" "value_type" untyped?)

/-- The parameter declared under a key. `required` says whether it is if its declaration does not
say so. -/
def ofDefinition (registry : Option Registry) (required : Bool) (key definition : Value) :
    Traced Parameter := do
  let d ← (declaration key definition : Except Fault Mapping)
  let written ← (expression key d : Except Fault String)
  let optional := Text.endsIn '?' written
  let type := if optional then Text.trim (Text.removeSuffix '?' written) else written
  -- a mark decides only where the declaration does not say `required` itself
  let full :=
    if d.hasField "required" then d else d.setField "required" (.bool (required && !optional))
  let valueType ←
    if ownTypes.contains type then pure none
    else some <$> buildValueType registry key (d.setField "type" (.text type))
  Traced.ofExcept ((read key type full valueType).toExcept .parameter)

/-- The parameters of an optional mapping, in order. -/
def ofOptional (registry : Option Registry) (required : Bool) (v : Value) : Traced Parameters :=
  v.records (ofDefinition registry required)

end Parameter

end Raml
