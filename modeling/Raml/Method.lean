import Raml.Body
import Raml.Number.Integer
import Raml.Text.Case

/-! # Methods

A method of a resource: its parameters, bodies and responses, and the security
schemes in force, which are the resource's with its own laid over them.
-/

namespace Raml

structure Response where
  statusCode : Int
  description : Option String
  headers : Parameters
  bodies : Bodies

structure Method where
  verb : String
  displayName : Option String
  description : Option String
  headers : Parameters
  queryParameters : Parameters
  protocols : List String
  bodies : Bodies
  responses : Table Int Response
  securitySchemes : SecuritySchemes
  annotations : Annotations

namespace Response

/-- The integer that a status code stands for: numbers without their fraction, texts of digits of
any script. -/
def statusOf (code : Value) : Except Fault Int :=
  let ofText (s : String) : Except Fault Int :=
    match Number.intOfScriptText? s with
    | some n => .ok n
    | none => .error .badValue
  match code with
  | .bool b => .ok (if b then 1 else 0)
  | .int n => .ok n
  | .float (.infinite _) => .error .overflow
  | .float x =>
      match x.truncate? with
      | some n => .ok n
      | none => .error .badValue
  | .text s => ofText s
  | .bytes b =>
      if b.all (· < 0x80) then ofText (String.ofList (b.map fun n => Char.ofNat n.toNat))
      else .error .badValue
  | _ => .error .wrongKind

/-- The response to a request that is declared under a code. `verb` is the method's. -/
def ofDefinition (d : Declarations) (verb : String) (code definition : Value) :
    Traced Response := do
  let status ← (statusOf code : Except Fault Int)
  let entries ← (definition.optionalEntries : Except Fault Mapping)
  let headers ← d.parameters false (entries.field "headers")
  let body := entries.field "body"
  let bodies ←
    Body.ofAll d (verb ++ " " ++ code.shown ++ " body") (if body.isEmpty then .map [] else body)
  let description := Field.given "description" (entries.field "description")
    (Field.optional Field.text?)
  Traced.ofExcept ((description.map fun text => ⟨status, text, headers, bodies⟩).toExcept .response)

end Response

namespace Method

def verbs : List String :=
  ["GET", "POST", "PUT", "DELETE", "PATCH", "HEAD", "OPTIONS", "TRACE", "CONNECT"]

/-- A protocol in upper case; only texts have one. -/
def protocolOf (v : Value) : Except Fault Value :=
  match v with
  | .text s => .ok (.text (Text.upper s))
  | .bytes b => .ok (.bytes (b.map fun n => if 97 ≤ n && n ≤ 122 then n - 32 else n))
  | _ => .error .notMapping

def readProtocols (v : Value) : Except Fault (List Value) := do
  let items ← v.optionalElements
  items.mapM protocolOf

/-- The fields of a method that are checked together, without bodies and responses. -/
def read (verb : String) (entries : Mapping) (headers queryParameters : Parameters)
    (protocols : List Value) (schemes : SecuritySchemes) : Checked Method :=
  (fun displayName description protocols =>
    { verb, displayName, description, headers, queryParameters, protocols, bodies := [],
      responses := [], securitySchemes := schemes, annotations := [] : Method })
  <$> Field.given "display_name" (entries.field "displayName") (Field.optional Field.text?)
  <*> Field.given "description" (entries.field "description") (Field.optional Field.text?)
  <*> Field.given "protocols" (.list protocols) Field.texts?

/-- The schemes in force where an entry for security may stand: those around it, with the entry's
laid over them. -/
def secured (d : Declarations) (outer : SecuritySchemes) (entries : Mapping) :
    Except Fault SecuritySchemes :=
  match entries.field? "securedBy" with
  | none => .ok outer
  | some v => do
      let own ← d.securitySchemes.resolve v
      .ok (Table.overlay outer own)

/-- The responses declared by codes; the last of several for one code counts. -/
def readResponses (d : Declarations) (verb : String) (v : Value) :
    Traced (Table Int Response) := do
  let entries ← (v.optionalEntries : Except Fault Mapping)
  let responses ← entries.mapM fun e => Response.ofDefinition d verb e.1 e.2
  return Table.ofList (responses.map fun r => (r.statusCode, r))

/-- The method declared under a verb, inside a resource with the given schemes in force. -/
def ofDefinition (d : Declarations) (schemes : SecuritySchemes) (verb : String)
    (definition : Value) : Traced Method := do
  let entries ← match definition.optionalEntries with
    | .ok entries => pure entries
    | .error _ => Traced.ofExcept (.error (.misplaced (.method verb)))
  let verb := Text.upper verb
  let headers ← d.parameters false (entries.field "headers")
  let queryParameters ← d.parameters false (entries.field "queryParameters")
  let protocols ← (readProtocols (entries.field "protocols") : Except Fault (List Value))
  let m ← Traced.ofExcept
    ((read verb entries headers queryParameters protocols schemes).toExcept .method)
  let securitySchemes ← (secured d schemes entries : Except Fault SecuritySchemes)
  let annotations ←
    (Annotations.ofEntries d.annotationTypes .method entries : Except Fault Annotations)
  let bodies ←
    match entries.field "body" with
    | .null => pure []
    | body => Body.ofAll d (verb ++ " body") body
  let responses ← readResponses d verb (entries.field "responses")
  return { m with securitySchemes, annotations, bodies, responses }

end Method

end Raml
