import Raml.Api.Build
import Raml.Api.Route
import Raml.Parameter.Validation

/-! # Queries

Looking up resources and checking values against the types, parameters and
bodies that an API declares.
-/

namespace Raml

namespace Api

/-! ## Resources -/

def firstMatch (uri : String) : List Resource → Except Fault Resource
  | [] => .error (.resourceNotFound uri)
  | r :: rest => do
      if ← r.matchesUri uri then .ok r else firstMatch uri rest

/-- The first resource that a URI is one of; its query does not matter. -/
def resourceByUri (a : Api) (uri : String) : Except Fault Resource :=
  firstMatch (withoutQuery uri) a.allResources

/-- The resource whose URI is just the path; its query does not matter. -/
def resourceByPath (a : Api) (path : String) : Except Fault Resource :=
  let path := withoutQuery path
  match a.allResources.find? fun r => r.uri == path with
  | some r => .ok r
  | none => .error (.resourceNotFound path)

def supports (a : Api) (p : Protocol) : Bool :=
  a.protocols.contains p

/-! ## Checks -/

def checkType (a : Api) (name : String) (v : Value) : Except Fault Unit := do
  let t ← Registry.find a.types name none
  t.validate a.types v

def checkAnnotation (a : Api) (name : String) (v : Value) : Except Fault Unit := do
  let t ← Table.entry a.annotationTypes name
  t.validate a.types v

def checkParameter (a : Api) (parameters : Parameters) (name : String) (v : Value) :
    Except Fault Unit := do
  let p ← Table.entry parameters name
  p.validate a.types v

/-- Whether a value satisfies the type of the body of a media type. The body of a response is told
by its status. -/
def checkBody (a : Api) (m : Method) (status : Option Int) (mediaType : String) (v : Value) :
    Except Fault Unit := do
  let bodies ←
    match status with
    | none => pure m.bodies
    | some status => do
        let response ← Table.entry m.responses status
        pure response.bodies
  let body ← Table.entry bodies mediaType
  match body.type with
  | some t => t.validate a.types v
  | none => .error .notMapping

/-! ## Building again -/

/-- Another API built on the registry of this one, which keeps what the registry is left with. -/
def rebuild (title definition : Value) : Edit Api Api :=
  onTypes (ofDefinition title definition)

end Api

end Raml
