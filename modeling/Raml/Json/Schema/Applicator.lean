import Raml.Json.Schema.Assertion

/-! # Applicators

The keywords of a schema that apply other schemas: to the value itself, to its
items, to its properties or to their names. How a schema is applied is a
parameter, so that each keyword stands on its own.
-/

namespace Raml

namespace Json

/-- How a schema applies others: those that stand in it, those that it refers to, and what they
say of the properties and items of a value. -/
structure Application where
  check : (schema v : Value) → Findings
  refer : (target : Target) → (v : Value) → Findings
  /-- The keys of a mapping that a schema says something about. -/
  evaluatedKeys : (schema : Value) → (entries : Mapping) → Except Fault (List Value)
  /-- The indices of the items that a schema says something about. -/
  evaluatedIndices : (schema : Value) → (items : List Value) → Except Fault (List Nat)

/-- What one keyword says of a value by means of other schemas. -/
abbrev Applicator := (apply : Application) → Assertion

namespace Application

def holds (apply : Application) (schema v : Value) : Except Fault Bool :=
  (apply.check schema v).isClean

/-- The findings about a part of a value. A schema that nothing satisfies is reported without the
step to the part. -/
def checkAt (apply : Application) (step : Step) (schema v : Value) : Findings :=
  match schema with
  | .bool false => apply.check schema v
  | _ => (apply.check schema v).under step

end Application

def Step.ofKey : Value → Step
  | .text k => .key k
  | .int (.ofNat n) => .index n
  | k => .key k.shown

namespace Applicator

open Assertion

/-- An assertion as an applicator that applies no schema. -/
def ofAssertion (a : Assertion) : Applicator := fun _ => a

def expectResult (draft : Draft) (schema : Mapping) (v : Value) (holds : Except Fault Bool)
    (message : String) : Findings :=
  .withResult holds fun holds => expect draft schema v holds message

/-! ## The value itself -/

def refer : Applicator := fun apply _ _ argument v =>
  match argument with
  | .text ref => apply.refer (.named ref) v
  | _ => .stop .wrongKind

def referToOutermost : Applicator := fun apply _ _ _ v => apply.refer .outermost v

def allOf : Applicator := fun apply _ _ argument v =>
  withItems argument fun schemas => .all (fun s => apply.check s v) schemas

def firstHolding (check : Value → Findings) :
    List Value → Except Fault (List Finding × Option (Value × List Value))
  | [] => .ok ([], none)
  | s :: rest =>
      let result := check s
      match result.halt with
      | some fault => .error fault
      | none =>
          if result.found.isEmpty then .ok ([], some (s, rest))
          else (firstHolding check rest).map fun later => (result.found ++ later.1, later.2)

def noneHolds (draft : Draft) (schema : Mapping) (v : Value) (context : List Finding) : Findings :=
  .one (.mk [] true (isTyped draft schema v)
    (v.inspected ++ " is not valid under any of the given schemas") context)

def anyOf : Applicator := fun apply draft schema argument v =>
  withItems argument fun schemas =>
    .withResult (firstHolding (apply.check · v) schemas) fun (found, first) =>
      if first.isSome then .none else noneHolds draft schema v found

def oneOf : Applicator := fun apply draft schema argument v =>
  withItems argument fun schemas =>
    .withResult (firstHolding (apply.check · v) schemas) fun (found, first) =>
      match first with
      | none => noneHolds draft schema v found
      | some (s, rest) =>
          .withResult (rest.filterM (apply.holds · v)) fun more =>
            if more.isEmpty then .none
            else
              .one (.mk [] true (isTyped draft schema v)
                (v.inspected ++ " is valid under each of " ++
                  ", ".intercalate ((more ++ [s]).map Value.inspected)) [])

def not : Applicator := fun apply draft schema argument v =>
  expectResult draft schema v ((apply.holds argument v).map (!·))
    (v.inspected ++ " should not be valid under " ++ argument.inspected)

/-- A schema that decides which of two others holds. -/
def ifThenElse : Applicator := fun apply _ schema argument v =>
  .withResult (apply.holds argument v) fun holds =>
    match schema.field? (if holds then "then" else "else") with
    | some s => apply.check s v
    | none => .none

/-! ## Items -/

def checkFrom (apply : Application) (start : Nat) (schema : Value) (items : List Value) :
    Findings :=
  .all (fun p : Value × Nat => apply.checkAt (.index p.2) schema p.1)
    ((items.zipIdx).drop start)

def checkEach (apply : Application) (schemas items : List Value) : Findings :=
  .all (fun p : Value × (Value × Nat) => apply.checkAt (.index p.2.2) p.1 p.2.1)
    (schemas.zip items.zipIdx)

def ofItems (v : Value) (f : List Value → Findings) : Findings :=
  match v with
  | .list items => f items
  | _ => .none

def ownCount (schema : Mapping) (key : String) : Nat :=
  match schema.field key with
  | .list schemas => schemas.length
  | .map entries => entries.length
  | _ => 0

def prefixItems : Applicator := fun apply _ _ argument v =>
  ofItems v fun items => withItems argument fun schemas => checkEach apply schemas items

def items : Applicator := fun apply draft schema argument v =>
  ofItems v fun items =>
    let own := ownCount schema "prefixItems"
    let extra := items.drop own
    if extra.isEmpty then .none
    else
      match argument with
      | .bool false =>
          let rest := match extra with
            | [item] => item
            | items => .list items
          report draft schema v
            ("Expected at most " ++ toString own ++ (if own = 1 then " item" else " items") ++
              " but found " ++ toString extra.length ++ " extra: " ++ rest.inspected)
      | _ => checkFrom apply own argument items

def itemsOrEach : Applicator := fun apply _ _ argument v =>
  ofItems v fun items =>
    match argument with
    | .list schemas => checkEach apply schemas items
    | _ => checkFrom apply 0 argument items

def additionalItems : Applicator := fun apply draft schema argument v =>
  ofItems v fun items =>
    match schema.field? "items" with
    | none | some (.map _) => .none
    | some (.list _) =>
        let own := ownCount schema "items"
        match argument with
        | .map _ => checkFrom apply own argument items
        | argument =>
            if argument.isEmpty && own < items.length then
              report draft schema v
                ("Additional items are not allowed (" ++
                  listed (items.drop own) "was unexpected)" "were unexpected)")
            else .none
    | some _ => .stop .wrongKind

def countHolding (apply : Application) (schema : Value) (limit : Number) :
    Nat → List Value → Except Fault Nat
  | n, [] => .ok n
  | n, item :: rest => do
      if ← apply.holds schema item then
        if limit.less (.int (n + 1 : Nat)) then .ok (n + 1)
        else countHolding apply schema limit (n + 1) rest
      else countHolding apply schema limit n rest

/-- The schema that a number of items satisfy; one item if nothing else is said. -/
def contains : Applicator := fun apply draft schema argument v =>
  ofItems v fun items =>
    let least := (schema.field? "minContains").getD (.int 1)
    let most := (schema.field? "maxContains").getD (.int items.length)
    withNumber least fun lower => withNumber most fun upper =>
      .withResult (countHolding apply argument upper 0 items) fun n =>
        if upper.less (.int n) then
          report draft schema v
            ("Too many items match the given schema (expected at most " ++ most.shown ++ ")")
        else if !(Number.int n).less lower then .none
        else if n = 0 then
          report draft schema v
            (v.inspected ++ " does not contain items matching the given schema")
        else
          report draft schema v
            ("Too few items match the given schema (expected at least " ++ least.shown ++
              " but only " ++ toString n ++ " matched)")

def containsSome : Applicator := fun apply draft schema argument v =>
  ofItems v fun items =>
    expectResult draft schema v (items.anyM fun item => apply.holds argument item)
      ("None of " ++ v.inspected ++ " are valid under the given schema")

/-- The schema of the items that no other keyword says anything about. -/
def unevaluatedItems : Applicator := fun apply draft schema _ v =>
  ofItems v fun items =>
    .withResult (apply.evaluatedIndices (.map schema) items) fun indices =>
      let left := (items.zipIdx.filter fun p => !indices.contains p.2).map (·.1)
      expect draft schema v left.isEmpty
        ("Unevaluated items are not allowed (" ++
          listed left "was unexpected)" "were unexpected)")

/-! ## Properties -/

def ofEntries (v : Value) (f : Mapping → Findings) : Findings :=
  match v with
  | .map entries => f entries
  | _ => .none

def properties : Applicator := fun apply _ _ argument v =>
  ofEntries v fun entries => withEntries argument fun schemas =>
    .all (fun e : Value × Value =>
      match entries.get? e.1 with
      | some item => apply.checkAt (.ofKey e.1) e.2 item
      | none => .none) schemas

def propertiesOrRequired : Applicator := fun apply draft schema argument v =>
  ofEntries v fun entries => withEntries argument fun schemas =>
    .all (fun e : Value × Value =>
      match entries.get? e.1, e.2 with
      | some item, s => apply.checkAt (.ofKey e.1) s item
      | none, .map s =>
          if (Mapping.field s "required").isEmpty then .none
          else
            (report draft schema v (e.1.inspected ++ " is a required property")).under
              (.key "required")
      | none, _ => .stop .notMapping) schemas

def occursInKey (source key : Value) : Except Fault Bool :=
  match source, key with
  | .text source, .text key => (patternOf source).map fun node => node.search key
  | _, _ => .error .wrongKind

/-- The schemas of the properties whose names a regular expression occurs in. -/
def patternProperties : Applicator := fun apply _ _ argument v =>
  ofEntries v fun entries => withEntries argument fun schemas =>
    .all (fun s : Value × Value =>
      .all (fun e : Value × Value =>
        .withResult (occursInKey s.1 e.1) fun occurs =>
          if occurs then apply.checkAt (.ofKey e.1) s.2 e.2 else .none) entries) schemas

def joinedPatterns (schema : Mapping) : String :=
  match schema.field "patternProperties" with
  | .map patterns => "|".intercalate ((Table.keys patterns).map Value.shown)
  | _ => ""

/-- The keys of a mapping that have no schema of their own and match no pattern. -/
def additionalKeys (schema entries : Mapping) : Except Fault (List Value) :=
  let own : Mapping := match schema.field "properties" with
    | .map own => own
    | _ => []
  let joined := joinedPatterns schema
  (entries.keys.filter fun k => !own.has k).filterM fun k =>
    if joined.isEmpty then .ok true else (occursInKey (.text joined) k).map (!·)

def additionalProperties : Applicator := fun apply draft schema argument v =>
  ofEntries v fun entries =>
    .withResult (additionalKeys schema entries) fun extra =>
      match argument with
      | .map _ =>
          .all (fun k => apply.checkAt (.ofKey k) argument ((entries.get? k).getD .null)) extra
      | argument =>
          if !argument.isEmpty || extra.isEmpty then .none
          else
            match schema.field? "patternProperties" with
            | some (.map patterns) =>
                report draft schema v
                  (listed (sortedByText extra) "does" "do" ++
                    " not match any of the regexes: " ++
                    ", ".intercalate ((sortedByText (Table.keys patterns)).map Value.inspected))
            | _ =>
                report draft schema v
                  ("Additional properties are not allowed (" ++
                    listed (sortedByText extra) "was unexpected)" "were unexpected)")

def propertyNames : Applicator := fun apply _ _ argument v =>
  ofEntries v fun entries => .all (fun k => apply.check argument k) entries.keys

def dependentSchemas : Applicator := fun apply _ _ argument v =>
  ofEntries v fun entries => withEntries argument fun schemas =>
    .all (fun e : Value × Value =>
      if entries.has e.1 then apply.check e.2 v else .none) schemas

/-- For each property, a schema or other properties, if the property is present. -/
def dependencies : Applicator := fun apply draft schema argument v =>
  ofEntries v fun entries => withEntries argument fun dependencies =>
    .all (fun e : Value × Value =>
      if !entries.has e.1 then .none
      else
        match e.2 with
        | .list names => needs draft schema v entries e.1 names
        | .text name =>
            if draft = .d3 then needs draft schema v entries e.1 [.text name]
            else apply.check e.2 v
        | s => apply.check s v) dependencies

/-- The schema of the properties that no other keyword says anything about. -/
def unevaluatedProperties : Applicator := fun apply draft schema argument v =>
  ofEntries v fun entries =>
    .withResult (apply.evaluatedKeys (.map schema) entries) fun keys =>
      let left := entries.filter fun e => !keys.contains e.1
      let results := left.map fun e => (e.1, apply.check argument e.2)
      match results.findSome? fun r => r.2.halt with
      | some fault => .stop fault
      | none =>
          let extra := results.flatMap fun r => r.2.found.map fun _ => r.1
          if extra.isEmpty then .none
          else
            match argument with
            | .bool false =>
                report draft schema v
                  ("Unevaluated properties are not allowed (" ++
                    listed (sortedByText extra) "was unexpected)" "were unexpected)")
            | _ =>
                report draft schema v
                  ("Unevaluated properties are not valid under the given schema (" ++
                    listed extra "was unexpected)" "were unexpected)")

/-! ## The oldest draft -/

def typeOrSchema : Applicator := fun apply draft schema argument v =>
  let alternatives := ensured argument
  let check (alternative : Value) : Findings :=
    match alternative with
    | .map _ => apply.check alternative v
    | .text word =>
        if hasType draft word v then .none
        else if isTypeWord word || word = "any" then .one (.mk [] false false "" [])
        else .stop .wrongKind
    | _ => .stop .wrongKind
  let named (alternative : Value) : String :=
    match alternative with
    | .map entries => ((Mapping.field? entries "name").getD alternative).inspected
    | _ => alternative.inspected
  .withResult (firstHolding check alternatives) fun (_, first) =>
    if first.isSome then .none
    else
      let context := alternatives.flatMap fun alternative =>
        match alternative with
        | .map _ => (apply.check alternative v).found
        | _ => []
      .one (.mk [] false (isTyped draft schema v)
        (v.inspected ++ " is not of type " ++ ", ".intercalate (alternatives.map named)) context)

/-- The types and schemas that a value may not have. -/
def disallow : Applicator := fun apply draft schema argument v =>
  .all (fun alternative =>
    expectResult draft schema v
      ((apply.holds (.map [(.text "type", .list [alternative])]) v).map (!·))
      (alternative.inspected ++ " is disallowed for " ++ v.inspected)) (ensured argument)

def extending : Applicator := fun apply _ _ argument v =>
  .all (fun s => apply.check s v) (ensured argument)

end Applicator

end Json

end Raml
