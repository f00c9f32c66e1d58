import Raml.DataType.Basic
import Raml.Field

/-! # Reading facets

The facets of a type are read from its declaration. A facet is found under its
usual name (`minLength`) or, when that is absent, under the same name in lower
case with underscores (`min_length`).
-/

namespace Raml

/-- What a type of any kind has, read from its declaration. The name is given, and a declaration
cannot set the supertype. -/
def Common.read (name : String) (d : Mapping) : Checked Common :=
  (fun required default sample samples displayName description enum =>
    { name, required, default, sample, samples, displayName, description, enum,
      parent := none, declaration := d : Common })
  <$> Field.read d "required" "required" (some true) Field.truth?
  <*> Field.read d "default" "default" (some .null) Field.any?
  <*> Field.read d "example" "example" (some .null) Field.any?
  <*> Field.read d "examples" "examples" (some .null) Field.any?
  <*> Field.readOptional d "displayName" "display_name" Field.text?
  <*> Field.readOptional d "description" "description" Field.text?
  <*> Field.readOptional d "enum" "enum" Field.items?

def TextFacets.read (d : Mapping) : Checked TextFacets :=
  TextFacets.mk
  <$> Field.readOptional d "pattern" "pattern" Field.text?
  <*> Field.readOptional d "minLength" "min_length" Field.int?
  <*> Field.readOptional d "maxLength" "max_length" Field.int?

def NumberFacets.read (d : Mapping) : Checked NumberFacets :=
  NumberFacets.mk
  <$> Field.readOptional d "minimum" "minimum" Field.number?
  <*> Field.readOptional d "maximum" "maximum" Field.number?
  <*> Field.readOptional d "multipleOf" "multiple_of" Field.number?
  <*> Field.readOptional d "format" "format" Field.text?

def FileFacets.read (d : Mapping) : Checked FileFacets :=
  FileFacets.mk
  <$> Field.readOptional d "fileTypes" "file_types" Field.texts?
  <*> Field.readOptional d "minLength" "min_length" Field.int?
  <*> Field.readOptional d "maxLength" "max_length" Field.int?

def ObjectFacets.read (d : Mapping) : Checked ObjectFacets :=
  ObjectFacets.mk
  <$> Field.readOptional d "minProperties" "min_properties" Field.int?
  <*> Field.readOptional d "maxProperties" "max_properties" Field.int?
  <*> Field.read d "additionalProperties" "additional_properties" (some true) Field.truth?
  <*> Field.readOptional d "discriminator" "discriminator" Field.text?
  <*> Field.read d "discriminatorValue" "discriminator_value" (some .null) Field.any?

def ArrayFacets.read (d : Mapping) : Checked ArrayFacets :=
  ArrayFacets.mk
  <$> Field.readOptional d "minItems" "min_items" Field.int?
  <*> Field.readOptional d "maxItems" "max_items" Field.int?
  <*> Field.read d "uniqueItems" "unique_items" (some false) Field.truth?

def readFormat (d : Mapping) : Checked (Option String) :=
  Field.readOptional d "format" "format" Field.text?

/-! ## Untyped members -/

/-- A type that a value describes field by field: an untyped one, which may name its supertype and
its declaration itself. -/
def untyped? (v : Value) : Option DataType :=
  match v with
  | .map d =>
      let read : Checked DataType :=
        (fun name c parent declaration =>
          .scalar { c with name, parent, declaration } .any)
        <$> Field.read d "name" "name" none Field.text?
        <*> Common.read "" d
        <*> Field.readOptional d "parent" "parent" Field.text?
        <*> Field.read d "declaration" "declaration" (some []) Value.map?
      match read with
      | .ok t => some t
      | .bad _ => none
  | _ => none

end Raml
