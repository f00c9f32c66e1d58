import Raml.Json.Schema.Reference
import Raml.Json.Schema.Rules
import Raml.Json.Schema.Unevaluated
import Raml.Value.Weight

/-! # Checking values against schemas

Each draft has its table of keywords. A value is checked keyword by keyword in
the order in which they stand in the schema; up to draft 7 a reference hides
the keywords beside it. A schema may refer to itself, but each round of
references goes on to a smaller part of the value or comes from further
resources, so the sizes of the value and of the document bound the depth.
-/

namespace Raml

namespace Json

open Applicator in
def sharedKeyword? : String → Option Applicator
  | "$ref" => some refer
  | "type" => some (ofAssertion Assertion.type)
  | "enum" => some (ofAssertion Assertion.enum)
  | "minLength" => some (ofAssertion Assertion.minLength)
  | "maxLength" => some (ofAssertion Assertion.maxLength)
  | "pattern" => some (ofAssertion Assertion.pattern)
  | "minItems" => some (ofAssertion Assertion.minItems)
  | "maxItems" => some (ofAssertion Assertion.maxItems)
  | "uniqueItems" => some (ofAssertion Assertion.uniqueItems)
  | "minimum" => some (ofAssertion Assertion.minimum)
  | "maximum" => some (ofAssertion Assertion.maximum)
  | "properties" => some properties
  | "patternProperties" => some patternProperties
  | "additionalProperties" => some additionalProperties
  | _ => none

open Applicator in
/-- The bounds of drafts 3 and 4, which a flag makes exclusive. -/
def flaggedBound? : String → Option Applicator
  | "minimum" =>
      some (ofAssertion
        (Assertion.flagged "exclusiveMinimum" Assertion.minimum Assertion.exclusiveMinimum))
  | "maximum" =>
      some (ofAssertion
        (Assertion.flagged "exclusiveMaximum" Assertion.maximum Assertion.exclusiveMaximum))
  | _ => none

open Applicator in
def keywordD3? : String → Option Applicator
  | "type" => some typeOrSchema
  | "disallow" => some disallow
  | "extends" => some extending
  | "properties" => some propertiesOrRequired
  | "dependencies" => some dependencies
  | "divisibleBy" => some (ofAssertion Assertion.multipleOf)
  | "items" => some itemsOrEach
  | "additionalItems" => some additionalItems
  | key => (flaggedBound? key).or (sharedKeyword? key)

open Applicator in
/-- The keywords that drafts from 4 on share. -/
def keywordFromD4? : String → Option Applicator
  | "allOf" => some allOf
  | "anyOf" => some anyOf
  | "oneOf" => some oneOf
  | "not" => some Applicator.not
  | "required" => some (ofAssertion Assertion.required)
  | "minProperties" => some (ofAssertion Assertion.minProperties)
  | "maxProperties" => some (ofAssertion Assertion.maxProperties)
  | "multipleOf" => some (ofAssertion Assertion.multipleOf)
  | key => sharedKeyword? key

open Applicator in
def keywordD4? : String → Option Applicator
  | "dependencies" => some dependencies
  | "items" => some itemsOrEach
  | "additionalItems" => some additionalItems
  | key => (flaggedBound? key).or (keywordFromD4? key)

open Applicator in
/-- The keywords that drafts from 6 on share. -/
def keywordFromD6? : String → Option Applicator
  | "const" => some (ofAssertion Assertion.const)
  | "exclusiveMinimum" => some (ofAssertion Assertion.exclusiveMinimum)
  | "exclusiveMaximum" => some (ofAssertion Assertion.exclusiveMaximum)
  | "propertyNames" => some propertyNames
  | key => keywordFromD4? key

open Applicator in
def keywordD6? : String → Option Applicator
  | "contains" => some containsSome
  | "dependencies" => some dependencies
  | "items" => some itemsOrEach
  | "additionalItems" => some additionalItems
  | key => keywordFromD6? key

open Applicator in
def keywordD7? : String → Option Applicator
  | "if" => some ifThenElse
  | key => keywordD6? key

open Applicator in
/-- The keywords that the drafts of 2019 and 2020 share. -/
def keywordFrom2019? : String → Option Applicator
  | "if" => some ifThenElse
  | "contains" => some contains
  | "dependentRequired" => some (ofAssertion Assertion.dependentRequired)
  | "dependentSchemas" => some dependentSchemas
  | "unevaluatedItems" => some unevaluatedItems
  | "unevaluatedProperties" => some unevaluatedProperties
  | key => keywordFromD6? key

open Applicator in
def keyword2019? : String → Option Applicator
  | "$recursiveRef" => some referToOutermost
  | "items" => some itemsOrEach
  | "additionalItems" => some additionalItems
  | key => keywordFrom2019? key

open Applicator in
def keyword2020? : String → Option Applicator
  | "$dynamicRef" => some refer
  | "prefixItems" => some prefixItems
  | "items" => some items
  | key => keywordFrom2019? key

def Draft.keyword? : Draft → String → Option Applicator
  | .d3 => keywordD3?
  | .d4 => keywordD4?
  | .d6 => keywordD6?
  | .d7 => keywordD7?
  | .d2019 => keyword2019?
  | .d2020 => keyword2020?

/-! ## Schemas -/

def activeEntries (draft : Draft) (schema : Mapping) : Mapping :=
  if draft.isFrom .d2019 || (schema.field "$ref").isNull then schema
  else [(.text "$ref", schema.field "$ref")]

/-- The findings of the keywords of a schema; the draft around it tells which are in force. -/
def checkKeywords (apply : Application) (outer draft : Draft) (schema : Mapping) (v : Value) :
    Findings :=
  .all (fun e : Value × Value =>
    match e.1 with
    | .text key =>
        match draft.keyword? key with
        | some keyword => keyword apply draft schema e.2 v
        | none => .none
    | _ => .none) (activeEntries outer schema)

/-- The fault of using something as a schema that is none. -/
def notSchema : Value → Fault
  | .text _ | .list _ => .notMapping
  | _ => .wrongKind

/-- How the schemas around a place are applied, given how schemas are checked and what they
evaluate. -/
def Scope.evaluation (s : Scope) (check : Scope → Value → Value → Findings)
    (keys : Scope → Value → Mapping → Except Fault (List Value))
    (indices : Scope → Value → List Value → Except Fault (List Nat)) : Evaluation where
  check schema v := check (s.enter schema) schema v
  refer target v := .withResult (s.follow target) fun found => check found.2 found.1 v
  evaluatedKeys := keys s
  evaluatedIndices := indices s
  referredKeys target entries := (s.follow target).bind fun found => keys found.2 found.1 entries
  referredIndices target items :=
    (s.follow target).bind fun found => indices found.2 found.1 items

mutual

/-- The findings of a value against a schema, with schemas applied `fuel` levels deep. -/
def checkWithin : Nat → Scope → Value → Value → Findings
  | 0, _, _, _ => .stop .endless
  | fuel + 1, scope, schema, v =>
      match schema with
      | .bool true => .none
      | .bool false => .one (.mk [] false false ("False schema does not allow " ++ v.inspected) [])
      | .map entries =>
          let inner := { scope with draft := .ofSchema scope.draft entries }
          let apply := inner.evaluation (checkWithin fuel) (keysWithin fuel) (indicesWithin fuel)
          checkKeywords apply.toApplication scope.draft inner.draft entries v
      | other => .stop (notSchema other)
termination_by structural fuel => fuel

def keysWithin : Nat → Scope → Value → Mapping → Except Fault (List Value)
  | 0, _, _, _ => .error .endless
  | fuel + 1, scope, schema, entries =>
      match schema with
      | .bool _ => .ok []
      | .map s =>
          (scope.evaluation (checkWithin fuel) (keysWithin fuel) (indicesWithin fuel)).keys s
            entries
      | other => .error (notSchema other)
termination_by structural fuel => fuel

def indicesWithin : Nat → Scope → Value → List Value → Except Fault (List Nat)
  | 0, _, _, _ => .error .endless
  | fuel + 1, scope, schema, items =>
      match schema with
      | .bool _ => .ok []
      | .map s =>
          (scope.evaluation (checkWithin fuel) (keysWithin fuel) (indicesWithin fuel)).indices
            scope.draft s items
      | other => .error (notSchema other)
termination_by structural fuel => fuel

end

/-! ## Documents -/

/-- The draft that a document declares, the newest if it declares none that is known. -/
def declaredDraft (schema : Mapping) : Except Fault Draft :=
  match schema.field? "$schema" with
  | none => .ok .d2020
  | some (.text id) => .ok ((Draft.ofIdentifier? id).getD .d2020)
  | some (.list _) | some (.map _) | some (.set _) => .error .wrongKind
  | some v => if v.isEmpty then .ok .d2020 else .error .notMapping

/-- How deeply schemas have to be applied at most. -/
def depthBound (d : Document) (v : Value) : Nat :=
  (v.weight + 1) * (2 * d.root.weight + 2) * (d.landmarks.length + 1)

def check (draft : Draft) (schema : Mapping) (v : Value) : Findings :=
  let document := Document.ofRoot draft schema
  checkWithin (depthBound document v) ⟨document, document.address, [], draft⟩ document.root v

inductive Verdict
  | satisfied
  | broken (message : String)
  /-- What should be a schema is none. -/
  | noSchema
  | failed (fault : Fault)

def verdict (document : Mapping) (v : Value) : Verdict :=
  match declaredDraft document with
  | .error fault => .failed fault
  | .ok draft =>
      if isSchema draft (.map document) then
        let findings := check draft document v
        match findings.halt, Finding.best? findings.found with
        | some fault, _ => .failed fault
        | none, some finding => .broken finding.message
        | none, none => .satisfied
      else .noSchema

end Json

end Raml
