import Raml.Api.Basic
import Raml.Registry.Inheritance

/-! # Building an API

The declarations come before the resources, and types before whatever may name
one. Inheritance is applied once all types are registered. The registry that an
API is built on is emptied first, and it keeps what was registered by then also
when the rest of the definition is at fault.
-/

namespace Raml

namespace Api

def documentationItem (item : Value) : Except Fault (Value × Value) :=
  match item with
  | .map entries =>
      match Mapping.field? entries "title" with
      | some title =>
          if title.isKey then .ok (title, Mapping.field entries "content") else .error .wrongKind
      | none => .error .documentationItem
  | _ => .error .documentationItem

def readDocumentation (v : Value) : Except Fault Mapping :=
  match v with
  | .null => .ok []
  | .map entries => .ok entries
  | .list items => do
      let contents ← items.mapM documentationItem
      .ok (Table.ofList contents)
  | _ => .error .documentation

def isExclusive (entries : Mapping) : Bool :=
  !(entries.field "schemas").isNull && !(entries.field "types").isNull

def whenPresent (v : Value) (f : Value → Edit Api Unit) : Edit Api Unit :=
  if v.isNull then pure () else f v

def describe (entries : Mapping) : Edit Api Unit := do
  Edit.modify fun a =>
    { a with
      description := entries.field "description"
      version :=
        let version := entries.field "version"
        if version.isNull then none else some version.shown }
  let protocols ← ((entries.field "protocols").optionalElements : Except Fault (List Value))
  Edit.forEach addProtocol protocols
  whenPresent (entries.field "baseUri") setBaseUri
  let documentation ←
    (readDocumentation (entries.field "documentation") : Except Fault Mapping)
  Edit.modify fun a => { a with mediaType := entries.field "mediaType", documentation }

def declareTypes (entries : Mapping) : Edit Api Unit := do
  whenPresent (entries.field "schemas") addSchemas
  let types ← ((entries.field "types").optionalEntries : Except Fault Mapping)
  onTypes (Registry.declareEach types)
  let d := (← Edit.get).toDeclarations
  let baseUriParameters ← d.parameters true (entries.field "baseUriParameters")
  Edit.modify fun a => { a with baseUriParameters }

def keepDeclared (entries : Mapping) : Edit Api Unit := do
  let traits ← ((entries.field "traits").optionalCopy : Except Fault Mapping)
  let resourceTypes ← ((entries.field "resourceTypes").optionalCopy : Except Fault Mapping)
  Edit.modify fun a => { a with traits, resourceTypes }

def readAnnotationTypes (registry : Registry) (v : Value) : Traced AnnotationTypes :=
  v.records (AnnotationType.ofDefinition (some registry))

def readSecuritySchemes (registry : Registry) (v : Value) : Traced SecuritySchemes :=
  v.records (SecurityScheme.ofDefinition (some registry))

/-- The security schemes and annotation types, and those that are in force for the API. -/
def declareUses (entries : Mapping) : Edit Api Unit := do
  let types := (← Edit.get).types
  let annotationTypes ← readAnnotationTypes types (entries.field "annotationTypes")
  let securitySchemes ← readSecuritySchemes types (entries.field "securitySchemes")
  let security := entries.field "securedBy"
  let securedBy ←
    (if security.isNull then .ok [] else securitySchemes.resolve security :
      Except Fault SecuritySchemes)
  let uses ← ((entries.field "uses").optionalCopy : Except Fault Mapping)
  let annotations ←
    (Annotations.ofEntries annotationTypes .api entries : Except Fault Annotations)
  Edit.modify fun a =>
    { a with annotationTypes, securitySchemes, securedBy, uses, annotations }

def resourceEntries (entries : Mapping) : List (String × Value) :=
  entries.filterMap fun e =>
    match e.1 with
    | .text key => if Text.startsIn '/' key then some (key, e.2) else none
    | _ => none

def addResources (entries : Mapping) : Edit Api Unit := do
  let d := (← Edit.get).toDeclarations
  let resources ← (resourceEntries entries).mapM fun e => do
    let r ← (Resource.ofDefinition d (.text e.1) e.2 : Traced Resource)
    return (e.1, r)
  Edit.modify fun a => { a with resources }

def addEntries (entries : Mapping) : Edit Api Unit := do
  describe entries
  declareTypes entries
  keepDeclared entries
  declareUses entries
  onTypes Registry.applyInheritance
  addResources entries
  let a ← Edit.get
  Traced.emit (.api a.title a.types.length a.resources.length)

/-- The title of an API; only texts are titles. -/
def readTitle (v : Value) : Except Fault String :=
  (Field.given "title" v Field.text?).toExcept .api

def ofDefinition (title definition : Value) : Edit Registry Api := do
  let entries ← (definition.optionalEntries : Except Fault Mapping)
  if isExclusive entries then Edit.fail .exclusive
  let title ← (readTitle title : Except Fault String)
  Edit.set []
  -- a fault in the entries is the outcome, but the types registered by then remain
  fun registry =>
    let change := addEntries entries { ofTitle title with types := registry }
    ⟨change.events, change.state.types, change.outcome.map fun _ => change.state⟩

end Api

end Raml
