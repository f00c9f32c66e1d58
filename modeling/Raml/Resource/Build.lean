import Raml.Resource.Basic

/-! # Building resources

The tree of resources follows the tree of their definitions: a key that starts
with a slash is a nested resource, the name of a verb a method. A resource hands
its URI parameters and annotations on to those nested in it, but not its base
URI parameters and not its security.
-/

namespace Raml

structure Inherited where
  uriParameters : Parameters
  annotations : Annotations

namespace Inherited

def none : Inherited := ⟨[], []⟩

def ofResource (r : Resource) : Inherited := ⟨r.uriParameters, r.annotations⟩

end Inherited

namespace Resource

def read (d : Declarations) (inherited : Inherited) (uri relativeUri : String)
    (entries : Mapping) : Checked Resource :=
  (fun displayName description =>
    { uri, relativeUri, displayName, description, baseUriParameters := d.baseUriParameters,
      uriParameters := inherited.uriParameters, securitySchemes := d.securedBy,
      annotations := inherited.annotations, methods := [], resources := [] : Resource })
  <$> Field.given "display_name" ((entries.field? "displayName").getD (.text uri)) Field.text?
  <*> Field.given "description" (entries.field "description") (Field.optional Field.text?)

def head (d : Declarations) (inherited : Inherited) (uri relativeUri : String)
    (entries : Mapping) : Traced Resource := do
  let r ← Traced.ofExcept ((read d inherited uri relativeUri entries).toExcept .resource)
  let base ← d.parameters true (entries.field "baseUriParameters")
  let own ← d.parameters true (entries.field "uriParameters")
  let securitySchemes ←
    (Method.secured d r.securitySchemes entries : Except Fault SecuritySchemes)
  let annotations ←
    (Annotations.ofEntries d.annotationTypes .resource entries : Except Fault Annotations)
  return { r with
    baseUriParameters := Table.overlay r.baseUriParameters base
    uriParameters := Table.overlay r.uriParameters own
    securitySchemes
    annotations := Table.overlay r.annotations annotations }

def finished (r : Resource) : Traced Resource := do
  Traced.emit (.resource r.uri r.methods.length)
  return r

/-- Whether a key is the name of a verb, in any case. -/
def isVerb (key : String) : Bool :=
  Method.verbs.contains (Text.upper key)

mutual

def build (d : Declarations) (inherited : Inherited) (uri relativeUri : String) :
    Value → Traced Resource
  | .map entries => do
      let r ← head d inherited uri relativeUri entries
      finished (← addAll d (.ofResource r) r entries)
  | v =>
      if v.isEmpty then do
        let r ← head d inherited uri relativeUri []
        finished r
      else Traced.ofExcept (.error (.misplaced (.resource uri)))
termination_by structural v => v

/-- A resource with the methods and nested resources among some entries. -/
def addAll (d : Declarations) (inherited : Inherited) (r : Resource) :
    List (Value × Value) → Traced Resource
  | [] => return r
  | e :: rest => do
      let r ← addOne d inherited r e
      addAll d inherited r rest
termination_by structural es => es

def addOne (d : Declarations) (inherited : Inherited) (r : Resource) :
    Value × Value → Traced Resource
  | (k, v) =>
      let key := k.shown
      if Text.startsIn '/' key then do
        let nested ← build d inherited (r.uri ++ key) key v
        return { r with resources := Table.insert r.resources key nested }
      else if isVerb key then do
        -- two spellings of one verb are one method, and the later one counts
        let m ← Method.ofDefinition d r.securitySchemes key v
        return { r with methods := r.methods.insert m.verb m }
      else return r
termination_by structural e => e

end

def ofDefinition (d : Declarations) (uri definition : Value) : Traced Resource :=
  match uri with
  | .text u =>
      if Text.startsIn '/' u then build d .none u u definition
      else Traced.ofExcept (.error (.uri uri))
  | uri => Traced.ofExcept (.error (.uri uri))

end Resource

end Raml
