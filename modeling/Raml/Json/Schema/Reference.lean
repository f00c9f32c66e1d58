import Raml.Fault
import Raml.Json.Schema.Basic
import Raml.Text.Digit
import Raml.Uri.Reference

/-! # References inside schemas

A schema with an identifier is a resource of its own, and the identifier, joined
to that of the resource around it, is the address under which it and the anchors
inside it are found. A reference is joined to the address of the place where it
stands; behind that it names a schema by a pointer of keys and indices or by an
anchor. A dynamic anchor stands for the outermost one of its name among the
resources that references were followed from.
-/

namespace Raml

namespace Json

/-! ## Resources -/

def Draft.identifierKey (d : Draft) : String :=
  if d.isFrom .d6 then "$id" else "id"

def resourceId? (d : Draft) (schema : Mapping) : Option String :=
  if !d.isFrom .d2019 && schema.hasField "$ref" then none
  else
    match schema.field d.identifierKey with
    | .text id =>
        if !d.isFrom .d2019 && Text.startsIn '#' id then none
        else some (String.ofList (id.toList.reverse.dropWhile (· = '#')).reverse)
    | _ => none

def joined (base id : String) : String :=
  String.ofList (Uri.join base.toList id.toList)

def addressOf (d : Draft) (base : String) (schema : Mapping) : String :=
  (resourceId? d schema).elim base (joined base)

inductive Holding
  | one
  | many
  | named
  | oneOrMany
  | dependencies

def Draft.holding? (d : Draft) (key : String) : Option Holding :=
  let is (first : Draft) (h : Holding) : Option Holding := if d.isFrom first then some h else none
  let until2019 (h : Holding) : Option Holding := if d.isFrom .d2020 then none else some h
  match key with
  | "additionalProperties" => some .one
  | "additionalItems" => until2019 .one
  | "not" => is .d4 .one
  | "contains" | "propertyNames" => is .d6 .one
  | "if" | "then" | "else" => is .d7 .one
  | "contentSchema" | "unevaluatedItems" | "unevaluatedProperties" => is .d2019 .one
  | "items" => some (if d.isFrom .d2020 then .one else .oneOrMany)
  | "extends" => if d = .d3 then some .many else none
  | "allOf" | "anyOf" | "oneOf" => is .d4 .many
  | "prefixItems" => is .d2020 .many
  | "definitions" | "patternProperties" | "properties" => some .named
  | "$defs" | "dependentSchemas" => is .d2019 .named
  | "dependencies" => if d.isFrom .d2019 then none else some .dependencies
  | _ => none

/-! ## Landmarks -/

inductive Landmark
  | resource (address : String) (schema : Value) (draft : Draft)
  | anchor (address name : String) (isDynamic : Bool) (schema : Value)

def ownLandmarks (d : Draft) (address : String) (schema : Mapping) : List Landmark :=
  let anchor (key : String) (isDynamic : Bool) : List Landmark :=
    match schema.field key with
    | .text name => [.anchor address name isDynamic (.map schema)]
    | _ => []
  let anchors :=
    if d.isFrom .d2020 then anchor "$dynamicAnchor" true ++ anchor "$anchor" false
    else if d.isFrom .d2019 then anchor "$anchor" false
    else
      match schema.field d.identifierKey with
      | .text id =>
          if Text.startsIn '#' id then
            [.anchor address (String.ofList (id.toList.drop 1)) false (.map schema)]
          else []
      | _ => []
  anchors ++ if (resourceId? d schema).isSome then [.resource address (.map schema) d] else []

mutual

/-- The landmarks inside what a keyword holds; of several under one address, the innermost is
first. -/
def landmarks (d : Draft) (base : String) (h : Holding) : Value → List Landmark
  | .map entries =>
      match h with
      | .one | .oneOrMany =>
          let own := Draft.ofSchema d entries
          let address := addressOf own base entries
          landmarksOfKeywords own address entries ++ ownLandmarks own address entries
      | .named | .dependencies => landmarksOfNamed d base entries
      | .many => []
  | .list items =>
      match h with
      | .many | .oneOrMany => landmarksOfItems d base items
      | _ => []
  | _ => []
termination_by structural v => v

def landmarksOfItems (d : Draft) (base : String) : List Value → List Landmark
  | [] => []
  | v :: rest => landmarks d base .one v ++ landmarksOfItems d base rest
termination_by structural vs => vs

def landmarksOfNamed (d : Draft) (base : String) : List (Value × Value) → List Landmark
  | [] => []
  | e :: rest => landmarksOfValue d base e ++ landmarksOfNamed d base rest
termination_by structural es => es

def landmarksOfValue (d : Draft) (base : String) : Value × Value → List Landmark
  | (_, v) => landmarks d base .one v
termination_by structural e => e

def landmarksOfKeywords (d : Draft) (base : String) : List (Value × Value) → List Landmark
  | [] => []
  | e :: rest => landmarksOfKeyword d base e ++ landmarksOfKeywords d base rest
termination_by structural es => es

def landmarksOfKeyword (d : Draft) (base : String) : Value × Value → List Landmark
  | (.text key, v) =>
      match d.holding? key with
      | some h => landmarks d base h v
      | none => []
  | _ => []
termination_by structural e => e

end

structure Document where
  root : Value
  draft : Draft
  address : String
  landmarks : List Landmark

namespace Document

def ofRoot (draft : Draft) (root : Mapping) : Document :=
  let address := (resourceId? draft root).getD ""
  ⟨.map root, draft, address, Json.landmarks draft address .one (.map root)⟩

def resource? (d : Document) (address : String) : Option (Value × Draft) :=
  if address = d.address then some (d.root, d.draft)
  else
    d.landmarks.findSome? fun
      | .resource place schema draft => if place = address then some (schema, draft) else none
      | .anchor .. => none

def anchored? (d : Document) (address name : String) : Option (Value × Bool) :=
  d.landmarks.findSome? fun
    | .anchor place own isDynamic schema =>
        if place = address ∧ own = name then some (schema, isDynamic) else none
    | .resource .. => none

end Document

/-! ## Places -/

/-- Where a schema stands: the address of its resource, those that references were followed from,
the last one first, and the draft. -/
structure Scope where
  document : Document
  base : String
  previous : List String
  draft : Draft

namespace Scope

/-- The place of a schema that stands inside another one's place. -/
def enter (s : Scope) (schema : Value) : Scope :=
  match schema with
  | .map entries => { s with base := addressOf s.draft s.base entries }
  | _ => s

def leaveFor (s : Scope) (address : String) : Scope :=
  if s.base ≠ "" && (s.previous.isEmpty || address ≠ s.base) then
    { s with base := address, previous := s.base :: s.previous }
  else { s with base := address }

/-! ## Pointers -/

/-- One step of a pointer: an index into a list, or a key in which `~1` is a slash and `~0` a
tilde. -/
def stepInto (v : Value) (segment : String) : Except Fault Value :=
  match v with
  | .list items =>
      if segment.isEmpty || !segment.toList.all Char.isDigit then .error .badValue
      else
        match items[Binary64.digitsValue segment.toList]? with
        | some item => .ok item
        | none => .error .schemaReference
  | .map entries =>
      let key := Text.replaceAll "~0" "~" (Text.replaceAll "~1" "/" segment)
      match Mapping.field? entries key with
      | some found => .ok found
      | none => .error .schemaReference
  | _ => .error .wrongKind

def leadsToSchema (d : Draft) (isMapping : Bool) : List String → Bool
  | [] => true
  | [segment] =>
      match d.holding? segment with
      | some .one => true
      | some .oneOrMany | some .dependencies => isMapping
      | _ => false
  | segment :: next :: rest =>
      match d.holding? segment with
      | some .one => leadsToSchema d isMapping (next :: rest)
      | some .many | some .named => leadsToSchema d isMapping rest
      | some .oneOrMany | some .dependencies => isMapping
      | none => false

/-- The value that the segments of a pointer lead to, with its place; `before` are the segments
since the last resource. -/
def followSegments (d : Draft) : Scope → List String → Value → List String →
    Except Fault (Value × Scope)
  | s, _, v, [] => .ok (v, s)
  | s, before, v, segment :: rest => do
      let next ← stepInto v segment
      let segments := before ++ [segment]
      match next with
      | .map entries =>
          if leadsToSchema d true segments && (resourceId? d entries).isSome then
            followSegments d { s with base := addressOf d s.base entries } [] next rest
          else followSegments d s segments next rest
      | _ => followSegments d s segments next rest

/-! ## References -/

/-- The schema that a dynamic anchor stands for: the last one of its name among the resources. -/
def outermostAnchored (s : Scope) (name : String) (own : Value) : Value :=
  s.previous.foldl (fun last address =>
    match s.document.anchored? address name with
    | some (schema, true) => schema
    | _ => last) own

def find (s : Scope) (ref : String) : Except Fault (Value × Scope) := do
  let (address, fragment) :=
    if Text.startsIn '#' ref then (s.base, ref.toList.drop 1)
    else
      let (address, fragment) := Uri.defragment (Uri.join s.base.toList ref.toList)
      (String.ofList address, fragment)
  match s.document.resource? address with
  | none => .error .schemaReference
  | some (schema, draft) =>
      let place := s.leaveFor address
      match fragment with
      | [] => .ok (schema, place)
      | '/' :: pointer =>
          let segments := Text.splitChars '/' (Uri.unquoted pointer.length pointer)
          followSegments draft place [] schema (segments.map String.ofList)
      | name =>
          let name := String.ofList name
          match s.document.anchored? address name with
          | some (own, true) =>
              let last := place.outermostAnchored name own
              .ok (last, place.enter last)
          | some (own, false) => .ok (own, place)
          | none => .error .schemaReference

def isRecursive (schema : Value) : Bool :=
  match schema with
  | .map entries => Mapping.field entries "$recursiveAnchor" == .bool true
  | _ => false

/-- The last of the resources, in order, that are recursive without a break. -/
def lastRecursive (s : Scope) (found : Value × Scope) :
    List String → Except Fault (Value × Scope)
  | [] => .ok found
  | address :: rest => do
      let next ← s.find address
      if isRecursive next.1 then lastRecursive s next rest else .ok found

def follow (s : Scope) (target : Target) : Except Fault (Value × Scope) :=
  match target with
  | .named ref => s.find ref
  | .outermost => do
      let found ← s.find "#"
      if isRecursive found.1 then lastRecursive s found s.previous else .ok found

end Scope

end Json

end Raml
