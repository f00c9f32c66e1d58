import Raml.Parameter.Build

/-! # Security schemes

A security scheme is declared under a key. What secures a resource or a method
is a list of entries, each the name of a declared scheme, the name with settings
that are laid over the scheme's own, or nothing, which stands for anonymous
access.
-/

namespace Raml

/-- The parameters and responses that a security scheme adds to a request. -/
structure SecurityDescription where
  headers : Parameters
  queryParameters : Parameters
  responses : Mapping

structure SecurityScheme where
  key : String
  type : Option String
  displayName : Option String
  description : Option String
  describedBy : SecurityDescription
  settings : Mapping

abbrev SecuritySchemes := Table String SecurityScheme

namespace SecurityDescription

def empty : SecurityDescription := ⟨[], [], []⟩

def readResponses (v : Value) : Except Fault Mapping := do
  let entries ← v.optionalEntries
  .ok (Table.ofList (entries.map fun e => (.text e.1.shown, e.2)))

def ofDefinition (registry : Option Registry) (v : Value) : Traced SecurityDescription := do
  let d ← (v.optionalEntries : Except Fault Mapping)
  let headers ← Parameter.ofOptional registry false (d.field "headers")
  let queryParameters ← Parameter.ofOptional registry false (d.field "queryParameters")
  let responses ← (readResponses (d.field "responses") : Except Fault Mapping)
  return ⟨headers, queryParameters, responses⟩

end SecurityDescription

namespace SecurityScheme

def anonymousKey : String := "null"

def anonymous : SecurityScheme := ⟨anonymousKey, none, none, none, .empty, []⟩

def isAnonymous (s : SecurityScheme) : Bool :=
  s.key == anonymousKey

def read (key : Value) (d : Mapping) (describedBy : SecurityDescription) (settings : Mapping) :
    Checked SecurityScheme :=
  SecurityScheme.mk
  <$> Field.given "key" key Field.text?
  <*> Field.given "type" (d.field "type") (Field.optional Field.text?)
  <*> Field.given "display_name" ((d.field? "displayName").getD key) (Field.optional Field.text?)
  <*> Field.given "description" (d.field "description") (Field.optional Field.text?)
  <*> Checked.ok describedBy
  <*> Field.given "settings" (.map settings) Field.textKeyed?

def ofDefinition (registry : Option Registry) (key definition : Value) :
    Traced SecurityScheme := do
  let d ← match definition.optionalEntries with
    | .ok d => pure d
    | .error _ => Traced.ofExcept (.error (.misplaced (.securityScheme key.shown)))
  let describedBy ← SecurityDescription.ofDefinition registry (d.field "describedBy")
  let settings ← ((d.field "settings").optionalCopy : Except Fault Mapping)
  Traced.ofExcept ((read key d describedBy settings).toExcept .securityScheme)

def withSettings (s : SecurityScheme) (overrides : Value) : Except Fault SecurityScheme :=
  match overrides.optionalEntries with
  | .ok entries => .ok { s with settings := Table.overlay s.settings entries }
  | .error _ => .error .wrongKind

end SecurityScheme

namespace SecuritySchemes

def nameOf? : Value → Option String
  | .text key => some key
  | .bytes b => some (Value.bytes b).shown
  | _ => none

def find (schemes : SecuritySchemes) (name : Value) : Except Fault SecurityScheme :=
  match nameOf? name with
  | some key =>
      match schemes.get? key with
      | some s => .ok s
      | none => .error (.undefinedScheme key)
  | none => .error (if name.isKey then .undefinedScheme name.shown else .wrongKind)

def ofEntry (schemes : SecuritySchemes) (entry : Value) : Except Fault SecurityScheme :=
  if entry.isEmpty then .ok .anonymous
  else
    match entry with
    -- an entry names one scheme; what follows the first key is not looked at
    | .map ((name, overrides) :: _) => do
        let s ← schemes.find name
        s.withSettings overrides
    | name => schemes.find name

def entriesOf : Value → List Value
  | .list entries => entries
  | v => [v]

def resolve (schemes : SecuritySchemes) (entries : Value) : Except Fault SecuritySchemes := do
  let found ← (entriesOf entries).mapM schemes.ofEntry
  .ok (Table.ofList (found.map fun s => (s.key, s)))

end SecuritySchemes

end Raml
