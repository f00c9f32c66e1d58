import Raml.Json.Schema.Applicator

/-! # What a schema says something about

A schema evaluates the properties and items of a value that one of its keywords
speaks of, and those that the schemas it applies to the same value evaluate.
What is left over is unevaluated.
-/

namespace Raml

namespace Json

/-- How the schemas inside a schema are applied, and what those it refers to evaluate. -/
structure Evaluation extends Application where
  referredKeys : (target : Target) → (entries : Mapping) → Except Fault (List Value)
  referredIndices : (target : Target) → (items : List Value) → Except Fault (List Nat)

namespace Evaluation

/-! ## Schemas applied to the same value -/

/-- What something says of a schema under a keyword, nothing if the keyword is absent. -/
def under {α : Type} (schema : Mapping) (key : String) (f : Value → Except Fault (List α)) :
    Except Fault (List α) :=
  match schema.field? key with
  | some s => f s
  | none => .ok []

def ofReferences {α : Type} (schema : Mapping)
    (referred : Target → Except Fault (List α)) : Except Fault (List α) := do
  let follow (v : Value) : Except Fault (List α) :=
    match v with
    | .text ref => referred (.named ref)
    | .null => .ok []
    | _ => .error .wrongKind
  let direct ← under schema "$ref" follow
  let dynamic ← under schema "$dynamicRef" follow
  let recursive ← under schema "$recursiveRef" fun _ => referred .outermost
  .ok (direct ++ dynamic ++ recursive)

def ofHolding {α : Type} (e : Evaluation) (v : Value) (evaluated : Value → Except Fault (List α)) :
    List Value → Except Fault (List α)
  | [] => .ok []
  | s :: rest => do
      let first ← if ← e.holds s v then evaluated s else .ok []
      let others ← ofHolding e v evaluated rest
      .ok (first ++ others)

def ofCombinations {α : Type} (e : Evaluation) (schema : Mapping) (v : Value)
    (evaluated : Value → Except Fault (List α)) : Except Fault (List α) := do
  let of (key : String) : Except Fault (List α) :=
    under schema key fun s => ofHolding e v evaluated ((s.items?).getD [])
  .ok ((← of "allOf") ++ (← of "oneOf") ++ (← of "anyOf"))

def ofCondition {α : Type} (e : Evaluation) (schema : Mapping) (v : Value)
    (evaluated : Value → Except Fault (List α)) : Except Fault (List α) :=
  under schema "if" fun condition => do
    if ← e.holds condition v then
      let own ← evaluated condition
      let more ← under schema "then" evaluated
      .ok (own ++ more)
    else under schema "else" evaluated

/-! ## Properties -/

def keysHolding (e : Evaluation) (schema : Mapping) (entries : Mapping) (key : String) :
    Except Fault (List Value) :=
  under schema key fun s =>
    if s.isNull then .ok []
    else (entries.filterM fun entry => e.holds s entry.2).map Table.keys

def keys (e : Evaluation) (schema : Mapping) (entries : Mapping) : Except Fault (List Value) := do
  let v := Value.map entries
  let evaluated (s : Value) : Except Fault (List Value) := e.evaluatedKeys s entries
  let referred ← ofReferences schema fun target => e.referredKeys target entries
  let own := match schema.field "properties" with
    | .map own => entries.keys.filter fun k => Table.has own k
    | _ => []
  let additional ← keysHolding e schema entries "additionalProperties"
  let unevaluated ← keysHolding e schema entries "unevaluatedProperties"
  let patterned ← under schema "patternProperties" fun s =>
    entries.keys.filterM fun k =>
      ((s.map?).getD []).keys.anyM fun source => Applicator.occursInKey source k
  let dependent ← under schema "dependentSchemas" fun s => do
    let lists ← ((s.map?).getD []).mapM fun d =>
      if entries.has d.1 then evaluated d.2 else .ok []
    .ok lists.flatten
  let combined ← ofCombinations e schema v evaluated
  let conditional ← ofCondition e schema v evaluated
  .ok (referred ++ own ++ additional ++ unevaluated ++ patterned ++ dependent ++ combined ++
    conditional)

/-! ## Items -/

def indicesHolding (e : Evaluation) (schema : Mapping) (items : List Value) (key : String) :
    Except Fault (List Nat) :=
  under schema key fun s =>
    (items.zipIdx.filterM fun p => e.holds s p.1).map fun ps => ps.map (·.2)

def coversItems (draft : Draft) (schema : Mapping) : Bool :=
  match schema.field? "items" with
  | none => false
  | some (.map _) => true
  | some _ => draft.isFrom .d2020 || schema.hasField "additionalItems"

def indices (e : Evaluation) (draft : Draft) (schema : Mapping) (items : List Value) :
    Except Fault (List Nat) := do
  let v := Value.list items
  let evaluated (s : Value) : Except Fault (List Nat) := e.evaluatedIndices s items
  if coversItems draft schema then .ok (List.range items.length)
  else
    let referred ← ofReferences schema fun target => e.referredIndices target items
    let own := List.range <|
      Applicator.ownCount schema (if draft.isFrom .d2020 then "prefixItems" else "items")
    let conditional ← ofCondition e schema v evaluated
    let contained ← indicesHolding e schema items "contains"
    let unevaluated ← indicesHolding e schema items "unevaluatedItems"
    let combined ← ofCombinations e schema v evaluated
    .ok (referred ++ own ++ conditional ++ contained ++ unevaluated ++ combined)

end Evaluation

end Json

end Raml
