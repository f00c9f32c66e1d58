import Raml.Declarations

/-! # Bodies

The body of a request or a response is declared for each media type, or once
for the usual media type. The type of a body may be a type expression, or stand
under `type` or `schema`, or follow from `properties`; a named type has to be
declared.
-/

namespace Raml

structure Body where
  mediaType : String
  type : Option DataType
  sample : Value
  description : Option String

abbrev Bodies := Table String Body

namespace Body

/-- The media type of bodies where nothing else is said. -/
def usualMediaType : String := "application/json"

def typeKeys : List Value := [.text "type", .text "schema", .text "properties"]

/-- Whether a definition gives a type. A collection does if it holds one of the keys; anything
else but a text cannot be looked through. -/
def isTyped (definition : Value) : Except Fault Bool :=
  match definition with
  | .text _ => .ok true
  | .bytes _ => .error .wrongKind
  | v =>
      match v.elements? with
      | some items => .ok (typeKeys.any fun key => items.any (Value.same key))
      | none => .error .wrongKind

/-- The type of a body; a reference has to lead to a declared type. -/
def buildType (d : Declarations) (name : String) (definition : Value) : Traced DataType := do
  let t ← DataType.traced true name definition
  match t with
  | .reference _ _ _ => do
      let _ ← (t.resolve d.types : Except Fault DataType)
      return t
  | t => return t

def read (mediaType : Value) (entries : Mapping) (type : Option DataType) : Checked Body :=
  Body.mk
  <$> Field.given "media_type" mediaType Field.text?
  <*> Checked.ok type
  <*> Checked.ok (entries.field "example")
  <*> Field.given "description" (entries.field "description") (Field.optional Field.text?)

def ofDefinition (d : Declarations) (name : String) (mediaType definition : Value) :
    Traced Body := do
  match definition with
  | .null => Traced.ofExcept ((read mediaType [] none).toExcept .body)
  | definition => do
      let type ←
        if ← (isTyped definition : Except Fault Bool) then
          some <$> buildType d name definition
        else pure none
      Traced.ofExcept ((read mediaType (definition.map?.getD []) type).toExcept .body)

def ofList (bodies : List Body) : Bodies :=
  Table.ofList (bodies.map fun b => (b.mediaType, b))

def ofUsual (d : Declarations) (name : String) (definition : Value) : Traced Bodies := do
  let mediaType := if d.mediaType.isEmpty then .text usualMediaType else d.mediaType
  return ofList [← ofDefinition d name mediaType definition]

/-- The bodies that a definition declares: one of the usual media type if it gives a type itself,
else one for each media type. -/
def ofAll (d : Declarations) (name : String) (definition : Value) : Traced Bodies :=
  match definition with
  | .text _ => ofUsual d name definition
  | .map entries =>
      if typeKeys.any fun key => Table.has entries key then ofUsual d name definition
      else ofList <$> entries.mapM fun e => ofDefinition d name e.1 e.2
  | _ => Traced.ofExcept (.error (.misplaced (.body name)))

end Body

end Raml
