import Raml.Json.Schema.Checker
import Raml.Proofs.DataType.Building

/-! # Faults of keywords

A fault that belongs to no documented family is called bare: it says only that
something was used for what it was not made for. The keywords of a JSON schema
are halted by bare faults alone, provided that the schemas they apply are.
-/

namespace Raml

/-! ## Results that fail in known ways -/

section FailsOnly

variable {α β : Type} {P : Fault → Prop}

/-- Whether all that a result can fail with has a property. -/
def FailsOnly (P : Fault → Prop) (x : Except Fault α) : Prop := ∀ f, x = .error f → P f

namespace FailsOnly

@[simp] theorem ok (a : α) : FailsOnly P (.ok a : Except Fault α) := by simp [FailsOnly]

@[simp] theorem error_iff {f : Fault} : FailsOnly P (.error f : Except Fault α) ↔ P f := by
  simp [FailsOnly]

theorem mono {Q : Fault → Prop} {x : Except Fault α} (h : FailsOnly P x) (hPQ : ∀ f, P f → Q f) :
    FailsOnly Q x := fun f hf => hPQ f (h f hf)

theorem bind {x : Except Fault α} {k : α → Except Fault β} (hx : FailsOnly P x)
    (hk : ∀ a, FailsOnly P (k a)) : FailsOnly P (x >>= k) := by
  intro f hf
  rcases Except.bind_eq_error_iff.1 hf with h | ⟨a, -, h⟩
  · exact hx f h
  · exact hk a f h

theorem map {x : Except Fault α} (hx : FailsOnly P x) (g : α → β) : FailsOnly P (x.map g) :=
  fun f hf => hx f (Except.map_eq_error_iff.1 hf)

theorem mapM {g : α → Except Fault β} (hg : ∀ a, FailsOnly P (g a)) (xs : List α) :
    FailsOnly P (xs.mapM g) := by
  intro f hf
  obtain ⟨a, -, ha⟩ := exists_of_mapM_eq_error hf
  exact hg a f ha

theorem filterM {g : α → Except Fault Bool} (hg : ∀ a, FailsOnly P (g a)) (xs : List α) :
    FailsOnly P (xs.filterM g) := by
  have haux : ∀ kept, FailsOnly P (List.filterAuxM g xs kept) := by
    induction xs with
    | nil => exact fun kept => ok _
    | cons a rest ih => exact fun kept => (hg a).bind fun keep => ih _
  exact (haux []).bind fun kept => ok _

theorem anyM {g : α → Except Fault Bool} (hg : ∀ a, FailsOnly P (g a)) (xs : List α) :
    FailsOnly P (xs.anyM g) := by
  induction xs with
  | nil => exact ok _
  | cons a rest ih =>
      refine (hg a).bind fun found => ?_
      cases found with
      | false => exact ih
      | true => exact ok _

end FailsOnly

end FailsOnly

namespace Json

variable {α β : Type}

/-- Whether a result fails with bare faults only. -/
abbrev Bare (x : Except Fault α) : Prop := FailsOnly (fun f => f.family = .other) x

/-- Whether a check is halted by bare faults only. -/
def Findings.Bare (fs : Findings) : Prop := ∀ f, fs.halt = some f → f.family = .other

/-! ## Findings -/

namespace Findings

@[simp] theorem bare_none : Findings.none.Bare := by simp [Findings.Bare, Findings.none]

@[simp] theorem bare_one (f : Finding) : (one f).Bare := by simp [Findings.Bare, one]

@[simp] theorem bare_stop {f : Fault} : (stop f).Bare ↔ f.family = .other := by
  simp [Findings.Bare, stop]

theorem Bare.and {a : Findings} {b : Unit → Findings} (ha : a.Bare) (hb : (b ()).Bare) :
    (a.and b).Bare := by
  unfold Findings.and
  split
  · exact ha
  · exact hb

theorem Bare.all {check : α → Findings} (h : ∀ a, (check a).Bare) (xs : List α) :
    (all check xs).Bare := by
  induction xs with
  | nil => exact bare_none
  | cons a rest ih => exact (h a).and ih

theorem Bare.under {fs : Findings} (h : fs.Bare) (step : Step) : (fs.under step).Bare := h

theorem Bare.isClean {fs : Findings} (h : fs.Bare) : Json.Bare fs.isClean := by
  unfold Findings.isClean
  split
  · exact FailsOnly.ok _
  · split
    · next fault hf => exact FailsOnly.error_iff.2 (h fault hf)
    · exact FailsOnly.ok _

end Findings

theorem Bare.withResult {x : Except Fault α} {f : α → Findings} (hx : Bare x)
    (hf : ∀ a, (f a).Bare) : (Findings.withResult x f).Bare := by
  cases x with
  | ok a => exact hf a
  | error fault => exact Findings.bare_stop.2 (hx fault rfl)

/-! ## Assertions -/

namespace Assertion

open Findings

/-- Whether a keyword is halted by bare faults only. -/
def Bare (a : Assertion) : Prop := ∀ draft schema argument v, (a draft schema argument v).Bare

variable (draft : Draft) (schema : Mapping)

@[simp] theorem bare_report (v : Value) (message : String) :
    (report draft schema v message).Bare := bare_one _

@[simp] theorem bare_expect (v : Value) (holds : Bool) (message : String) :
    (expect draft schema v holds message).Bare := by
  unfold expect
  split
  · exact bare_none
  · exact bare_report _ _ _ _

theorem bare_withNumber {f : Number → Findings} (h : ∀ n, (f n).Bare) (argument : Value) :
    (withNumber argument f).Bare := by
  unfold withNumber
  split
  · exact h _
  · exact bare_stop.2 rfl

theorem bare_withItems {f : List Value → Findings} (h : ∀ items, (f items).Bare)
    (argument : Value) : (withItems argument f).Bare := by
  unfold withItems
  split
  · exact h _
  · exact bare_stop.2 rfl

theorem bare_withEntries {f : Mapping → Findings} (h : ∀ entries, (f entries).Bare)
    (argument : Value) : (withEntries argument f).Bare := by
  unfold withEntries
  split
  · exact h _
  · exact bare_stop.2 rfl

@[simp] theorem bare_type : Bare type := fun _ _ _ _ => bare_expect _ _ _ _ _

@[simp] theorem bare_enum : Bare enum := fun _ _ _ _ =>
  bare_withItems (fun _ => bare_expect _ _ _ _ _) _

@[simp] theorem bare_const : Bare const := fun _ _ _ _ => bare_expect _ _ _ _ _

@[simp] theorem bare_bound (holds : (number limit : Number) → Bool) (words : String) :
    Bare (bound holds words) := by
  intro draft schema argument v
  unfold bound
  split
  · exact bare_none
  · exact bare_withNumber (fun _ => bare_expect _ _ _ _ _) _

theorem bare_flagged (flag : String) {inclusive exclusive : Assertion} (hi : Bare inclusive)
    (he : Bare exclusive) : Bare (flagged flag inclusive exclusive) := by
  intro draft schema argument v
  unfold flagged
  split
  · exact hi _ _ _ _
  · exact he _ _ _ _

theorem bare_isMultipleOfFloat (n : Number) (step : Binary64) :
    Json.Bare (isMultipleOfFloat n step) := by
  unfold isMultipleOfFloat
  split
  · exact FailsOnly.error_iff.2 rfl
  · split
    · exact FailsOnly.error_iff.2 rfl
    · exact FailsOnly.ok _
    · split
      · exact FailsOnly.ok _
      · exact FailsOnly.error_iff.2 rfl

theorem bare_leavesNoRemainder (x : Binary64) (step : Option Binary64) :
    Json.Bare (leavesNoRemainder x step) := by
  cases step with
  | none => exact FailsOnly.error_iff.2 rfl
  | some step => exact FailsOnly.ok _

theorem bare_isMultipleOf (n step : Number) : Json.Bare (isMultipleOf n step) := by
  unfold isMultipleOf
  split
  · exact bare_isMultipleOfFloat _ _
  · split
    · exact FailsOnly.error_iff.2 rfl
    · exact FailsOnly.ok _
  · exact bare_leavesNoRemainder _ _

@[simp] theorem bare_multipleOf : Bare multipleOf := by
  intro draft schema argument v
  unfold multipleOf
  split
  · exact bare_none
  · exact bare_withNumber
      (fun _ => (bare_isMultipleOf _ _).withResult fun _ => bare_expect _ _ _ _ _) _

@[simp] theorem bare_atLeast (size? : Value → Option Nat) (words : String) :
    Bare (atLeast size? words) := by
  intro draft schema argument v
  unfold atLeast
  split
  · exact bare_none
  · exact bare_withNumber (fun _ => bare_expect _ _ _ _ _) _

@[simp] theorem bare_atMost (size? : Value → Option Nat) (words : String) :
    Bare (atMost size? words) := by
  intro draft schema argument v
  unfold atMost
  split
  · exact bare_none
  · exact bare_withNumber (fun _ => bare_expect _ _ _ _ _) _

theorem bare_patternOf (source : String) : Json.Bare (patternOf source) := by
  unfold patternOf
  split <;> simp [Fault.family]

@[simp] theorem bare_pattern : Bare pattern := by
  intro draft schema argument v
  unfold pattern
  split
  · split
    · exact (bare_patternOf _).withResult fun _ => bare_expect _ _ _ _ _
    · exact bare_stop.2 rfl
  · exact bare_none

@[simp] theorem bare_uniqueItems : Bare uniqueItems := by
  intro draft schema argument v
  unfold uniqueItems
  split
  · exact bare_expect _ _ _ _ _
  · exact bare_none

@[simp] theorem bare_required : Bare required := by
  intro draft schema argument v
  unfold required
  split
  · exact bare_withItems (fun names => .all (fun _ => bare_expect _ _ _ _ _) names) _
  · exact bare_none

theorem bare_needs (v : Value) (entries : Mapping) (property : Value) (names : List Value) :
    (needs draft schema v entries property names).Bare :=
  .all (fun _ => bare_expect _ _ _ _ _) names

@[simp] theorem bare_dependentRequired : Bare dependentRequired := by
  intro draft schema argument v
  unfold dependentRequired
  split
  · refine bare_withEntries (fun dependencies => .all (fun e => ?_) dependencies) _
    split
    · exact bare_withItems (fun _ => bare_needs _ _ _ _ _ _) _
    · exact bare_none
  · exact bare_none

end Assertion

/-! ## Applicators -/

/-- Whether applying schemas is halted by bare faults only. -/
structure Application.Bare (apply : Application) : Prop where
  check : ∀ schema v, (apply.check schema v).Bare
  refer : ∀ ref v, (apply.refer ref v).Bare
  evaluatedKeys : ∀ schema entries, Json.Bare (apply.evaluatedKeys schema entries)
  evaluatedIndices : ∀ schema items, Json.Bare (apply.evaluatedIndices schema items)

namespace Application.Bare

variable {apply : Application}

theorem holds (h : apply.Bare) (schema v : Value) : Json.Bare (apply.holds schema v) :=
  (h.check schema v).isClean

theorem checkAt (h : apply.Bare) (step : Step) (schema v : Value) :
    (apply.checkAt step schema v).Bare := by
  unfold Application.checkAt
  split
  · exact h.check _ _
  · exact (h.check _ _).under step

end Application.Bare

namespace Applicator

open Assertion Findings

/-- Whether a keyword is halted by bare faults only if applying other schemas is. -/
def Bare (k : Applicator) : Prop := ∀ apply : Application, apply.Bare → (k apply).Bare

@[simp] theorem bare_ofAssertion {a : Assertion} (h : a.Bare) : Bare (ofAssertion a) :=
  fun _ _ => h

theorem bare_expectResult (draft : Draft) (schema : Mapping) (v : Value)
    {holds : Except Fault Bool} (h : Json.Bare holds) (message : String) :
    (expectResult draft schema v holds message).Bare :=
  h.withResult fun _ => bare_expect _ _ _ _ _

/-! ### The value itself -/

@[simp] theorem bare_refer : Bare refer := by
  intro apply h draft schema argument v
  unfold refer
  split
  · exact h.refer _ _
  · exact bare_stop.2 rfl

@[simp] theorem bare_referToOutermost : Bare referToOutermost := fun _ h _ _ _ _ => h.refer _ _

@[simp] theorem bare_allOf : Bare allOf := fun _ h _ _ _ _ =>
  bare_withItems (fun schemas => .all (fun _ => h.check _ _) schemas) _

theorem bare_firstHolding {check : Value → Findings} (h : ∀ s, (check s).Bare)
    (schemas : List Value) : Json.Bare (firstHolding check schemas) := by
  induction schemas with
  | nil => exact FailsOnly.ok _
  | cons s rest ih =>
      unfold firstHolding
      dsimp only
      split
      · next fault hf => exact FailsOnly.error_iff.2 (h s fault hf)
      · split
        · exact FailsOnly.ok _
        · exact ih.map _

@[simp] theorem bare_anyOf : Bare anyOf := by
  intro apply h draft schema argument v
  refine bare_withItems (fun schemas => ?_) _
  refine (bare_firstHolding (fun s => h.check s v) schemas).withResult fun result => ?_
  dsimp only
  split
  · exact bare_none
  · exact bare_one _

@[simp] theorem bare_oneOf : Bare oneOf := by
  intro apply h draft schema argument v
  refine bare_withItems (fun schemas => ?_) _
  refine (bare_firstHolding (fun s => h.check s v) schemas).withResult fun result => ?_
  dsimp only
  split
  · exact bare_one _
  · refine Bare.withResult (FailsOnly.filterM (fun s => h.holds s v) _) fun more => ?_
    split
    · exact bare_none
    · exact bare_one _

@[simp] theorem bare_not : Bare Applicator.not := fun _ h _ _ _ _ =>
  bare_expectResult _ _ _ ((h.holds _ _).map _) _

@[simp] theorem bare_ifThenElse : Bare ifThenElse := by
  intro apply h draft schema argument v
  refine (h.holds argument v).withResult fun holds => ?_
  split
  · exact h.check _ _
  · exact bare_none

/-! ### Items -/

theorem bare_ofItems {f : List Value → Findings} (h : ∀ items, (f items).Bare) (v : Value) :
    (ofItems v f).Bare := by
  unfold ofItems
  split
  · exact h _
  · exact bare_none

theorem bare_checkFrom {apply : Application} (h : apply.Bare) (start : Nat) (schema : Value)
    (items : List Value) : (checkFrom apply start schema items).Bare :=
  .all (fun _ => h.checkAt _ _ _) _

theorem bare_checkEach {apply : Application} (h : apply.Bare) (schemas items : List Value) :
    (checkEach apply schemas items).Bare :=
  .all (fun _ => h.checkAt _ _ _) _

@[simp] theorem bare_prefixItems : Bare prefixItems := fun _ h _ _ _ _ =>
  bare_ofItems (fun _ => bare_withItems (fun _ => bare_checkEach h _ _) _) _

@[simp] theorem bare_items : Bare Applicator.items := by
  intro apply h draft schema argument v
  refine bare_ofItems (fun items => ?_) v
  dsimp only
  split
  · exact bare_none
  · split
    · exact bare_report _ _ _ _
    · exact bare_checkFrom h _ _ _

@[simp] theorem bare_itemsOrEach : Bare itemsOrEach := by
  intro apply h draft schema argument v
  refine bare_ofItems (fun items => ?_) v
  split
  · exact bare_checkEach h _ _
  · exact bare_checkFrom h _ _ _

@[simp] theorem bare_additionalItems : Bare additionalItems := by
  intro apply h draft schema argument v
  refine bare_ofItems (fun items => ?_) v
  split
  · exact bare_none
  · exact bare_none
  · split
    · exact bare_checkFrom h _ _ _
    · dsimp only
      split
      · exact bare_report _ _ _ _
      · exact bare_none
  · exact bare_stop.2 rfl

theorem bare_countHolding {apply : Application} (h : apply.Bare) (schema : Value) (limit : Number)
    (n : Nat) (items : List Value) : Json.Bare (countHolding apply schema limit n items) := by
  induction items generalizing n with
  | nil => exact FailsOnly.ok _
  | cons item rest ih =>
      refine (h.holds schema item).bind fun holds => ?_
      split
      · split
        · exact FailsOnly.ok _
        · exact ih _
      · exact ih _

@[simp] theorem bare_contains : Bare contains := by
  intro apply h draft schema argument v
  refine bare_ofItems (fun items => ?_) v
  refine bare_withNumber (fun lower => bare_withNumber (fun upper => ?_) _) _
  refine (bare_countHolding h argument upper 0 items).withResult fun n => ?_
  split
  · exact bare_report _ _ _ _
  · split
    · exact bare_none
    · split
      · exact bare_report _ _ _ _
      · exact bare_report _ _ _ _

@[simp] theorem bare_containsSome : Bare containsSome := fun _ h _ _ _ _ =>
  bare_ofItems (fun items =>
    bare_expectResult _ _ _ (FailsOnly.anyM (fun _ => h.holds _ _) items) _) _

@[simp] theorem bare_unevaluatedItems : Bare unevaluatedItems := fun _ h _ _ _ _ =>
  bare_ofItems (fun _ =>
    (h.evaluatedIndices _ _).withResult fun _ => bare_expect _ _ _ _ _) _

/-! ### Properties -/

theorem bare_ofEntries {f : Mapping → Findings} (h : ∀ entries, (f entries).Bare) (v : Value) :
    (ofEntries v f).Bare := by
  unfold ofEntries
  split
  · exact h _
  · exact bare_none

@[simp] theorem bare_properties : Bare properties := by
  intro apply h draft schema argument v
  refine bare_ofEntries (fun entries => bare_withEntries (fun schemas => ?_) _) v
  refine .all (fun e => ?_) schemas
  split
  · exact h.checkAt _ _ _
  · exact bare_none

@[simp] theorem bare_propertiesOrRequired : Bare propertiesOrRequired := by
  intro apply h draft schema argument v
  refine bare_ofEntries (fun entries => bare_withEntries (fun schemas => ?_) _) v
  refine .all (fun e => ?_) schemas
  split
  · exact h.checkAt _ _ _
  · split
    · exact bare_none
    · exact (bare_report _ _ _ _).under _
  · exact bare_stop.2 rfl

theorem bare_occursInKey (source key : Value) : Json.Bare (occursInKey source key) := by
  unfold occursInKey
  split
  · exact (bare_patternOf _).map _
  · exact FailsOnly.error_iff.2 rfl

@[simp] theorem bare_patternProperties : Bare patternProperties := by
  intro apply h draft schema argument v
  refine bare_ofEntries (fun entries => bare_withEntries (fun schemas => ?_) _) v
  refine .all (fun s => .all (fun e => ?_) entries) schemas
  refine (bare_occursInKey s.1 e.1).withResult fun occurs => ?_
  split
  · exact h.checkAt _ _ _
  · exact bare_none

theorem bare_additionalKeys (schema entries : Mapping) :
    Json.Bare (additionalKeys schema entries) := by
  refine FailsOnly.filterM (fun k => ?_) _
  split
  · exact FailsOnly.ok _
  · exact (bare_occursInKey _ _).map _

@[simp] theorem bare_additionalProperties : Bare additionalProperties := by
  intro apply h draft schema argument v
  refine bare_ofEntries (fun entries => ?_) v
  refine (bare_additionalKeys schema entries).withResult fun extra => ?_
  split
  · exact .all (fun _ => h.checkAt _ _ _) extra
  · split
    · exact bare_none
    · split
      · exact bare_report _ _ _ _
      · exact bare_report _ _ _ _

@[simp] theorem bare_propertyNames : Bare propertyNames := fun _ h _ _ _ _ =>
  bare_ofEntries (fun _ => .all (fun _ => h.check _ _) _) _

@[simp] theorem bare_dependentSchemas : Bare dependentSchemas := by
  intro apply h draft schema argument v
  refine bare_ofEntries (fun entries => bare_withEntries (fun schemas => ?_) _) v
  refine .all (fun e => ?_) schemas
  split
  · exact h.check _ _
  · exact bare_none

@[simp] theorem bare_dependencies : Bare dependencies := by
  intro apply h draft schema argument v
  refine bare_ofEntries (fun entries => bare_withEntries (fun dependencies => ?_) _) v
  refine .all (fun e => ?_) dependencies
  split
  · exact bare_none
  · split
    · exact bare_needs _ _ _ _ _ _
    · split
      · exact bare_needs _ _ _ _ _ _
      · exact h.check _ _
    · exact h.check _ _

@[simp] theorem bare_unevaluatedProperties : Bare unevaluatedProperties := by
  intro apply h draft schema argument v
  refine bare_ofEntries (fun entries => ?_) v
  refine (h.evaluatedKeys _ _).withResult fun keys => ?_
  dsimp only
  split
  · next fault hfault =>
      obtain ⟨result, hmem, hhalt⟩ := List.exists_of_findSome?_eq_some hfault
      obtain ⟨entry, -, rfl⟩ := List.mem_map.1 hmem
      exact bare_stop.2 (h.check _ _ fault hhalt)
  · split
    · exact bare_none
    · split
      · exact bare_report _ _ _ _
      · exact bare_report _ _ _ _

/-! ### The oldest draft -/

@[simp] theorem bare_typeOrSchema : Bare typeOrSchema := by
  intro apply h draft schema argument v
  refine (bare_firstHolding (fun alternative => ?_) _).withResult fun result => ?_
  · split
    · exact h.check _ _
    · split
      · exact bare_none
      · split
        · exact bare_one _
        · exact bare_stop.2 rfl
    · exact bare_stop.2 rfl
  · dsimp only
    split
    · exact bare_none
    · exact bare_one _

@[simp] theorem bare_disallow : Bare disallow := fun _ h _ _ _ _ =>
  .all (fun _ => bare_expectResult _ _ _ ((h.holds _ _).map _) _) _

@[simp] theorem bare_extending : Bare extending := fun _ h _ _ _ _ => .all (fun _ => h.check _ _) _

end Applicator

/-! ## Keywords -/

section Keywords

variable {key : String} {k : Applicator}

theorem bare_sharedKeyword (h : sharedKeyword? key = some k) : k.Bare := by
  unfold sharedKeyword? at h
  split at h <;> cases h <;> simp [Assertion.minLength, Assertion.maxLength, Assertion.minItems,
    Assertion.maxItems, Assertion.minimum, Assertion.maximum]

theorem bare_flaggedBound (h : flaggedBound? key = some k) : k.Bare := by
  unfold flaggedBound? at h
  split at h <;> cases h <;> refine Applicator.bare_ofAssertion (Assertion.bare_flagged _ ?_ ?_) <;>
    exact Assertion.bare_bound _ _

theorem bare_flaggedBound_or {other : Option Applicator} (hother : other = some k → k.Bare)
    (h : (flaggedBound? key).or other = some k) : k.Bare := by
  rcases Option.or_eq_some_iff.1 h with h | ⟨-, h⟩
  · exact bare_flaggedBound h
  · exact hother h

theorem bare_keywordD3 (h : keywordD3? key = some k) : k.Bare := by
  unfold keywordD3? at h
  split at h <;> first
    | exact bare_flaggedBound_or bare_sharedKeyword h
    | cases h; simp

theorem bare_keywordFromD4 (h : keywordFromD4? key = some k) : k.Bare := by
  unfold keywordFromD4? at h
  split at h <;> first
    | exact bare_sharedKeyword h
    | cases h; simp [Assertion.minProperties, Assertion.maxProperties]

theorem bare_keywordD4 (h : keywordD4? key = some k) : k.Bare := by
  unfold keywordD4? at h
  split at h <;> first
    | exact bare_flaggedBound_or bare_keywordFromD4 h
    | cases h; simp

theorem bare_keywordFromD6 (h : keywordFromD6? key = some k) : k.Bare := by
  unfold keywordFromD6? at h
  split at h <;> first
    | exact bare_keywordFromD4 h
    | cases h; simp [Assertion.exclusiveMinimum, Assertion.exclusiveMaximum]

theorem bare_keywordD6 (h : keywordD6? key = some k) : k.Bare := by
  unfold keywordD6? at h
  split at h <;> first
    | exact bare_keywordFromD6 h
    | cases h; simp

theorem bare_keywordD7 (h : keywordD7? key = some k) : k.Bare := by
  unfold keywordD7? at h
  split at h <;> first
    | exact bare_keywordD6 h
    | cases h; simp

theorem bare_keywordFrom2019 (h : keywordFrom2019? key = some k) : k.Bare := by
  unfold keywordFrom2019? at h
  split at h <;> first
    | exact bare_keywordFromD6 h
    | cases h; simp

theorem bare_keyword2019 (h : keyword2019? key = some k) : k.Bare := by
  unfold keyword2019? at h
  split at h <;> first
    | exact bare_keywordFrom2019 h
    | cases h; simp

theorem bare_keyword2020 (h : keyword2020? key = some k) : k.Bare := by
  unfold keyword2020? at h
  split at h <;> first
    | exact bare_keywordFrom2019 h
    | cases h; simp

theorem bare_keyword {draft : Draft} (h : draft.keyword? key = some k) : k.Bare := by
  cases draft with
  | d3 => exact bare_keywordD3 h
  | d4 => exact bare_keywordD4 h
  | d6 => exact bare_keywordD6 h
  | d7 => exact bare_keywordD7 h
  | d2019 => exact bare_keyword2019 h
  | d2020 => exact bare_keyword2020 h

end Keywords

theorem bare_checkKeywords {apply : Application} (h : apply.Bare) (outer draft : Draft)
    (schema : Mapping) (v : Value) : (checkKeywords apply outer draft schema v).Bare := by
  refine .all (fun e => ?_) _
  split
  · split
    · next keyword hk => exact bare_keyword hk apply h _ _ _ _
    · exact Findings.bare_none
  · exact Findings.bare_none

end Json

end Raml
