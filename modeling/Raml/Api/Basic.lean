import Raml.Header
import Raml.Resource.Build
import Raml.Uri.Scheme

/-! # API definitions

An API definition has declarations, what it says about itself, and a tree of
resources. Traits, resource types and libraries are kept as they are declared
and are not applied to anything.
-/

namespace Raml

inductive Protocol
  | http
  | https
deriving DecidableEq

namespace Protocol

def text : Protocol → String
  | .http => "HTTP"
  | .https => "HTTPS"

def ofText? (name : String) : Option Protocol :=
  [http, https].find? fun p => p.text == name

/-- The protocol that a value names, in any case. -/
def ofValue (v : Value) : Except Fault Protocol :=
  match ofText? (Text.upper v.shown) with
  | some p => .ok p
  | none => .error (.protocol v.shown)

/-- The protocol that a base URI starts with, if it is one of them. An absent value of any kind
that can be a key has none; bytes are looked at and never name one. -/
def ofBaseUri (uri : Value) : Except Fault (Option Protocol) :=
  if !uri.isKey then .error .wrongKind
  else if uri.isEmpty then .ok none
  else
    match uri with
    | .text s => do
        let scheme ← Uri.scheme s
        .ok (ofText? (Text.upper scheme))
    | .bytes b =>
        if b.all (· < 0x80) then do
          let _ ← Uri.scheme (String.ofList (b.map fun n => Char.ofNat n.toNat))
          .ok none
        else .error .undecodable
    | _ => .error .notMapping

end Protocol

structure Api extends Declarations where
  title : String
  description : Value
  version : Option String
  baseUri : Value
  protocols : List Protocol
  documentation : Mapping
  traits : Mapping
  resourceTypes : Mapping
  uses : Mapping
  annotations : Annotations
  resources : Table String Resource
  /-- The schemas of the older way to declare types, as they are declared. -/
  schemaCollections : Mapping
  /-- The version that the header of the document names. -/
  ramlVersion : Option Version

namespace Api

def ofTitle (title : String) : Api :=
  { Declarations.empty with
    title, description := .null, version := none, baseUri := .null, protocols := [],
    documentation := [], traits := [], resourceTypes := [], uses := [], annotations := [],
    resources := [], schemaCollections := [], ramlVersion := none }

def allResources (a : Api) : List Resource :=
  Resource.preorderAll a.resources

/-- The base URI with the version in place of its placeholder. Only a text has a placeholder. -/
def baseUrl (a : Api) : Except Fault Value :=
  match a.version with
  | some version =>
      if a.baseUri.isEmpty || version.isEmpty then .ok a.baseUri
      else
        match a.baseUri with
        | .text uri => .ok (.text (Text.replaceAll "\x7bversion\x7d" version uri))
        | .bytes _ | .date _ | .instant _ => .error .wrongKind
        | _ => .error .notMapping
  | none => .ok a.baseUri

/-! ## Edits -/

def onTypes {α : Type} (x : Edit Registry α) : Edit Api α :=
  Edit.onPart (fun a => a.types) (fun types a => { a with types }) x

def addProtocol (v : Value) : Edit Api Unit := do
  let p ← (Protocol.ofValue v : Except Fault Protocol)
  Edit.modify fun a =>
    if a.protocols.contains p then a else { a with protocols := a.protocols ++ [p] }

/-- The base URI. It names the protocol where none is declared, and it stays also when it cannot be
read. -/
def setBaseUri (uri : Value) : Edit Api Unit := do
  Edit.modify fun a => { a with baseUri := uri }
  if (← Edit.get).protocols.isEmpty then
    match ← (Protocol.ofBaseUri uri : Except Fault (Option Protocol)) with
    | some p => Edit.modify fun a => { a with protocols := [p] }
    | none => pure ()

def addSchema (name schema : Value) : Edit Api Unit := do
  match schema with
  | .text _ | .map _ => do
      Edit.modify fun a => { a with schemaCollections := a.schemaCollections.insert name schema }
      -- the declaration is kept by now, also if no type can be built from it
      let t ← DataType.tracedNamed true name schema
      onTypes (Registry.register t name.text?)
  | _ => Edit.fail (.schemaDefinition name.shown)

def addSchemaCollection (v : Value) : Edit Api Unit :=
  match v with
  | .map entries => Edit.forEach (fun e => addSchema e.1 e.2) entries
  | _ => Edit.fail .schemaCollection

def addSchemas (v : Value) : Edit Api Unit :=
  match v with
  | .map _ => addSchemaCollection v
  | .list collections => Edit.forEach addSchemaCollection collections
  | _ => Edit.fail .schemas

end Api

end Raml
