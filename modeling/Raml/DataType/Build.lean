import Raml.DataType.Facets
import Raml.DataType.Outline
import Raml.Value.Weight

/-! # Building types

A type is built from the outline of its declaration once the types nested in it
are built: its facets are read last. A nested declaration is always smaller
than the one it stands in, which bounds the depth of the recursion.
-/

namespace Raml

namespace DataType

def scalarRecord : ScalarWord → Record
  | .any => .anyType
  | .string => .stringType
  | .number => .numberType
  | .integer => .integerType
  | .boolean => .booleanType
  | .nil => .nilType
  | .file => .fileType
  | .temporal .dateOnly => .dateOnlyType
  | .temporal .timeOnly => .timeOnlyType
  | .temporal .dateTimeOnly => .dateTimeOnlyType
  | .temporal .dateTime => .dateTimeType

def readScalar (d : Mapping) : ScalarWord → Checked Scalar
  | .any => .ok .any
  | .string => (TextFacets.read d).map .string
  | .number => (NumberFacets.read d).map .number
  | .integer => (NumberFacets.read d).map .integer
  | .boolean => .ok .boolean
  | .nil => .ok .nil
  | .file => (FileFacets.read d).map .file
  | .temporal kind => (readFormat d).map (.temporal kind)

/-- The members of a union: a list under `oneOf` takes the place of the built ones. -/
def readMembers (d : Mapping) (built : List DataType) : Checked (List DataType) :=
  match d.field? "oneOf" with
  | none => .ok built
  | some v =>
      match (Field.items? v).bind fun items => items.mapM untyped? with
      | some members => .ok members
      | none => .bad ["oneOf"]

/-- The type that an outline describes, from the types nested in it. `bound` says whether
references can be looked up. -/
def assemble (bound : Bool) (o : Outline) (nested : List DataType) : Except Fault DataType :=
  let d := o.declaration
  let common := Common.read o.name d
  match o.shape with
  | .scalar word =>
      (DataType.scalar <$> common <*> readScalar d word).toExcept (scalarRecord word)
  | .object properties =>
      -- two spellings that differ in the mark are one property, built from the later one
      let names := properties.map fun p => Text.removeSuffix '?' p.1
      let built := Table.ofList (names.zip nested)
      ((fun c f => DataType.object c f built) <$> common <*> ObjectFacets.read d).toExcept
        .objectType
  | .array _ =>
      ((fun c f => DataType.array c f nested.head?) <$> common <*> ArrayFacets.read d).toExcept
        .arrayType
  | .union _ => (DataType.union <$> common <*> readMembers d nested).toExcept .unionType
  | .reference target =>
      ((fun c => DataType.reference c target bound) <$> common).toExcept .referenceType
  | .json schema => ((fun c => DataType.scalar c (.json schema)) <$> common).toExcept .jsonType
  | .xml schema => ((fun c => DataType.scalar c (.xml schema)) <$> common).toExcept .xmlType
  | .embedded schema =>
      ((fun c schema => DataType.scalar c (.json schema)) <$> Common.read o.name [] <*>
        Field.given "raw_schema" schema Value.map?).toExcept .jsonType
        |>.map (mapCommon fun c => { c with declaration := d })

/-- The type declared under a name, with nested declarations followed `fuel` levels deep. -/
def buildWithin (bound : Bool) : Nat → String → Value → Except Fault DataType
  | 0, _, _ => .error .endless
  | fuel + 1, name, definition => do
      let o ← Outline.ofDefinition name definition
      let nested ← o.shape.nested.mapM fun p => buildWithin bound fuel p.1 p.2
      assemble bound o nested

/-- The type declared under a name. References to other types are bound to a registry if there is
one, and are looked up only when they are used. -/
def build (bound : Bool) (name : String) (definition : Value) : Except Fault DataType :=
  buildWithin bound definition.weight name definition

def buildNamed (bound : Bool) (name definition : Value) : Except Fault DataType :=
  match name with
  | .text name => build bound name definition
  | name => .error (.typeName name)

end DataType

end Raml
