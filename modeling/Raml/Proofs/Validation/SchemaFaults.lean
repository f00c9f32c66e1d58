import Raml.Proofs.Validation.KeywordFaults

/-! # Faults of schema checks

Checking a value against a JSON schema ends in a bare fault or in none: what a
reference leads to, what a schema evaluates and what its keywords find are each
halted by bare faults alone, one level of schemas after the other.
-/

namespace Raml

namespace Json

/-! ## References -/

namespace Scope

theorem bare_stepInto (v : Value) (segment : String) : Bare (stepInto v segment) := by
  unfold stepInto
  split
  · split
    · exact FailsOnly.error_iff.2 rfl
    · split
      · exact FailsOnly.ok _
      · exact FailsOnly.error_iff.2 rfl
  · dsimp only
    split
    · exact FailsOnly.ok _
    · exact FailsOnly.error_iff.2 rfl
  · exact FailsOnly.error_iff.2 rfl

theorem bare_followSegments (d : Draft) (s : Scope) (before : List String) (v : Value)
    (segments : List String) : Bare (followSegments d s before v segments) := by
  induction segments generalizing s before v with
  | nil => exact FailsOnly.ok _
  | cons segment rest ih =>
      refine (bare_stepInto v segment).bind fun next => ?_
      dsimp only
      split
      · split
        · exact ih _ _ _
        · exact ih _ _ _
      · exact ih _ _ _

theorem bare_find (s : Scope) (ref : String) : Bare (s.find ref) := by
  unfold find
  dsimp only
  split
  · exact FailsOnly.error_iff.2 rfl
  · split
    · exact FailsOnly.ok _
    · exact bare_followSegments _ _ _ _ _
    · split
      · exact FailsOnly.ok _
      · exact FailsOnly.ok _
      · exact FailsOnly.error_iff.2 rfl

theorem bare_lastRecursive (s : Scope) (found : Value × Scope) (addresses : List String) :
    Bare (s.lastRecursive found addresses) := by
  induction addresses generalizing found with
  | nil => exact FailsOnly.ok _
  | cons address rest ih =>
      refine (bare_find s address).bind fun next => ?_
      split
      · exact ih next
      · exact FailsOnly.ok _

theorem bare_follow (s : Scope) (target : Target) : Bare (s.follow target) := by
  cases target with
  | named ref => exact bare_find s ref
  | outermost =>
      refine (bare_find s "#").bind fun found => ?_
      split
      · exact bare_lastRecursive s found _
      · exact FailsOnly.ok _

end Scope

/-! ## What a schema evaluates -/

/-- Whether evaluating a schema is halted by bare faults only. -/
structure Evaluation.Bare (e : Evaluation) : Prop extends Application.Bare e.toApplication where
  referredKeys : ∀ target entries, Json.Bare (e.referredKeys target entries)
  referredIndices : ∀ target items, Json.Bare (e.referredIndices target items)

namespace Evaluation

variable {e : Evaluation} {β : Type}

theorem bare_under {f : Value → Except Fault (List β)} (h : ∀ s, Json.Bare (f s))
    (schema : Mapping) (key : String) : Json.Bare (under schema key f) := by
  unfold under
  split
  · exact h _
  · exact FailsOnly.ok _

theorem bare_ofReferences {referred : Target → Except Fault (List β)}
    (h : ∀ target, Json.Bare (referred target)) (schema : Mapping) :
    Json.Bare (ofReferences schema referred) := by
  unfold ofReferences
  dsimp only
  refine (bare_under (fun v => ?direct) _ _).bind fun _ => ?_
  case direct =>
    split
    · exact h _
    · exact FailsOnly.ok _
    · exact FailsOnly.error_iff.2 rfl
  refine (bare_under (fun v => ?dynamic) _ _).bind fun _ => ?_
  case dynamic =>
    split
    · exact h _
    · exact FailsOnly.ok _
    · exact FailsOnly.error_iff.2 rfl
  exact (bare_under (fun _ => h _) _ _).bind fun _ => FailsOnly.ok _

theorem bare_ofHolding (he : e.toApplication.Bare) {evaluated : Value → Except Fault (List β)}
    (h : ∀ s, Json.Bare (evaluated s)) (v : Value) (schemas : List Value) :
    Json.Bare (ofHolding e v evaluated schemas) := by
  induction schemas with
  | nil => exact FailsOnly.ok _
  | cons s rest ih =>
      refine (he.holds s v).bind fun holds => ?_
      cases holds with
      | true => exact (h s).bind fun _ => ih.bind fun _ => FailsOnly.ok _
      | false => exact (FailsOnly.ok _).bind fun _ => ih.bind fun _ => FailsOnly.ok _

theorem bare_ofCombinations (he : e.toApplication.Bare)
    {evaluated : Value → Except Fault (List β)} (h : ∀ s, Json.Bare (evaluated s))
    (schema : Mapping) (v : Value) : Json.Bare (ofCombinations e schema v evaluated) := by
  have hof : ∀ key : String, Json.Bare (under schema key fun s =>
      ofHolding e v evaluated ((s.items?).getD [])) := fun key =>
    bare_under (fun s => bare_ofHolding he h v _) _ _
  exact (hof _).bind fun _ => (hof _).bind fun _ => (hof _).bind fun _ => FailsOnly.ok _

theorem bare_ofCondition (he : e.toApplication.Bare) {evaluated : Value → Except Fault (List β)}
    (h : ∀ s, Json.Bare (evaluated s)) (schema : Mapping) (v : Value) :
    Json.Bare (ofCondition e schema v evaluated) := by
  refine bare_under (fun condition => ?_) _ _
  refine (he.holds condition v).bind fun holds => ?_
  cases holds with
  | true => exact (h condition).bind fun _ => (bare_under h _ _).bind fun _ => FailsOnly.ok _
  | false => exact bare_under h _ _

theorem bare_keysHolding (he : e.toApplication.Bare) (schema entries : Mapping) (key : String) :
    Json.Bare (keysHolding e schema entries key) := by
  refine bare_under (fun s => ?_) _ _
  split
  · exact FailsOnly.ok _
  · exact (FailsOnly.filterM (fun _ => he.holds _ _) _).map _

theorem bare_keys (he : e.Bare) (schema entries : Mapping) : Json.Bare (e.keys schema entries) := by
  have happly : e.toApplication.Bare := he.toBare
  have hevaluated : ∀ s, Json.Bare (e.evaluatedKeys s entries) :=
    fun s => he.evaluatedKeys s entries
  refine (bare_ofReferences (fun target => he.referredKeys target entries) schema).bind fun _ => ?_
  refine (bare_keysHolding happly _ _ _).bind fun _ => ?_
  refine (bare_keysHolding happly _ _ _).bind fun _ => ?_
  refine (bare_under (fun s => ?patterned) _ _).bind fun _ => ?_
  case patterned =>
    exact FailsOnly.filterM (fun k => FailsOnly.anyM (fun _ => Applicator.bare_occursInKey _ _) _) _
  refine (bare_under (fun s => ?dependent) _ _).bind fun _ => ?_
  case dependent =>
    refine (FailsOnly.mapM (fun d => ?_) _).bind fun _ => FailsOnly.ok _
    split
    · exact hevaluated _
    · exact FailsOnly.ok _
  refine (bare_ofCombinations happly hevaluated _ _).bind fun _ => ?_
  exact (bare_ofCondition happly hevaluated _ _).bind fun _ => FailsOnly.ok _

theorem bare_indicesHolding (he : e.toApplication.Bare) (schema : Mapping) (items : List Value)
    (key : String) : Json.Bare (indicesHolding e schema items key) :=
  bare_under (fun _ => (FailsOnly.filterM (fun _ => he.holds _ _) _).map _) _ _

theorem bare_indices (he : e.Bare) (draft : Draft) (schema : Mapping) (items : List Value) :
    Json.Bare (e.indices draft schema items) := by
  have happly : e.toApplication.Bare := he.toBare
  have hevaluated : ∀ s, Json.Bare (e.evaluatedIndices s items) := fun s =>
    he.evaluatedIndices s items
  unfold indices
  dsimp only
  split
  · exact FailsOnly.ok _
  · refine (bare_ofReferences (fun target => he.referredIndices target items) schema).bind fun _ => ?_
    refine (bare_ofCondition happly hevaluated _ _).bind fun _ => ?_
    refine (bare_indicesHolding happly _ _ _).bind fun _ => ?_
    refine (bare_indicesHolding happly _ _ _).bind fun _ => ?_
    exact (bare_ofCombinations happly hevaluated _ _).bind fun _ => FailsOnly.ok _

end Evaluation

/-! ## Schemas -/

theorem bare_notSchema (v : Value) : (notSchema v).family = .other := by
  cases v <;> rfl

/-- What a schema applies, one level deeper, is halted by bare faults only. -/
theorem Scope.bare_evaluation {check : Scope → Value → Value → Findings}
    {keys : Scope → Value → Mapping → Except Fault (List Value)}
    {indices : Scope → Value → List Value → Except Fault (List Nat)}
    (hcheck : ∀ s schema v, (check s schema v).Bare)
    (hkeys : ∀ s schema entries, Bare (keys s schema entries))
    (hindices : ∀ s schema items, Bare (indices s schema items)) (s : Scope) :
    (s.evaluation check keys indices).Bare where
  check _ := hcheck _ _
  refer target _ := (bare_follow s target).withResult fun _ => hcheck _ _ _
  evaluatedKeys := hkeys s
  evaluatedIndices := hindices s
  referredKeys target _ := (bare_follow s target).bind fun _ => hkeys _ _ _
  referredIndices target _ := (bare_follow s target).bind fun _ => hindices _ _ _

theorem bare_within (fuel : Nat) :
    (∀ s schema v, (checkWithin fuel s schema v).Bare) ∧
      (∀ s schema entries, Bare (keysWithin fuel s schema entries)) ∧
      ∀ s schema items, Bare (indicesWithin fuel s schema items) := by
  -- the three ask each other one level down, so they share the induction
  induction fuel with
  | zero =>
      exact ⟨fun _ _ _ => Findings.bare_stop.2 rfl, fun _ _ _ => FailsOnly.error_iff.2 rfl,
        fun _ _ _ => FailsOnly.error_iff.2 rfl⟩
  | succ fuel ih =>
      obtain ⟨hcheck, hkeys, hindices⟩ := ih
      have heval := Scope.bare_evaluation hcheck hkeys hindices
      refine ⟨fun s schema v => ?_, fun s schema entries => ?_, fun s schema items => ?_⟩
      · unfold checkWithin
        split
        · exact Findings.bare_none
        · exact Findings.bare_one _
        · exact bare_checkKeywords (heval _).toBare _ _ _ _
        · exact Findings.bare_stop.2 (bare_notSchema _)
      · unfold keysWithin
        split
        · exact FailsOnly.ok _
        · exact Evaluation.bare_keys (heval s) _ _
        · exact FailsOnly.error_iff.2 (bare_notSchema _)
      · unfold indicesWithin
        split
        · exact FailsOnly.ok _
        · exact Evaluation.bare_indices (heval s) _ _ _
        · exact FailsOnly.error_iff.2 (bare_notSchema _)

theorem bare_declaredDraft (schema : Mapping) : Bare (declaredDraft schema) := by
  unfold declaredDraft
  split
  · exact FailsOnly.ok _
  · exact FailsOnly.ok _
  · exact FailsOnly.error_iff.2 rfl
  · exact FailsOnly.error_iff.2 rfl
  · exact FailsOnly.error_iff.2 rfl
  · split
    · exact FailsOnly.ok _
    · exact FailsOnly.error_iff.2 rfl

/-- The check of a value fails only where something in the schema is not what it is used for. -/
theorem verdict_failed {f : Fault} {document : Mapping} {v : Value}
    (h : verdict document v = .failed f) : f.family = .other := by
  unfold verdict at h
  split at h
  · next fault hdraft =>
      obtain rfl := Verdict.failed.inj h
      exact bare_declaredDraft document _ hdraft
  · split at h
    · dsimp only at h
      split at h
      · next fault hfault =>
          obtain rfl := Verdict.failed.inj h
          exact (bare_within _).1 _ _ _ _ hfault
      · cases h
      · cases h
    · cases h

end Json

end Raml
