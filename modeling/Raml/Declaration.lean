import Raml.Fault

/-! # Type declarations

A type is declared by a mapping of facets, by a type expression alone, or by
nothing at all. `normalize` brings the three to a mapping that has a `type`, and
`merge` lays the declaration of a subtype over that of its supertype.
-/

namespace Raml

namespace Declaration

/-- The type that a mapping without one has by its other facets. -/
def impliedType (d : Mapping) : Value :=
  .text (if d.hasField "properties" then "object" else "string")

/-- The mapping with its `type` filled in: from `schema`, which then disappears, or implied. -/
def withType (d : Mapping) : Mapping :=
  if (d.field "type").isNull then
    let schema := d.field "schema"
    if schema.isNull then d.setField "type" (impliedType d)
    else (d.eraseField "schema").setField "type" schema
  else d

def normalize : Value → Except Fault Mapping
  | .text expression => .ok [(.text "type", .text expression)]
  | .null => .ok [(.text "type", .text "string")]
  | .map d => .ok (withType d)
  | other => .error (.typeDefinition other)

/-- One facet of a subtype written over its supertype's: `type` stays the supertype's, and two
mappings of properties are merged property by property. -/
def mergeFacet (parent merged : Mapping) (facet : Value × Value) : Mapping :=
  if facet.1 == .text "type" then merged
  else if facet.1 == .text "properties" then
    match facet.2, parent.field "properties" with
    | .map own, .map inherited => merged.insert facet.1 (.map (Table.overlay inherited own))
    -- where either is no mapping there is nothing to merge, and the subtype's own stand
    | own, _ => merged.insert facet.1 own
  else merged.insert facet.1 facet.2

/-- A subtype's declaration laid over its supertype's. -/
def merge (parent child : Mapping) : Mapping :=
  child.foldl (mergeFacet parent) parent

end Declaration

end Raml
