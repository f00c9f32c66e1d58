import Raml.Proofs.DataType.Misfits
import Raml.Proofs.Resource.Tree

/-! # Misshapen definitions

A definition is read with a documented fault at most, unless something in it has
not the shape that it is read with. For each kind of definition the places where
that is not checked are listed, and reading is followed line by line.
-/

namespace Raml

open Declaration (Misfit MisfitUnder HasLongNumber)

/-! ## Operations -/

namespace Traced

variable {α β : Type} {M N : Prop}

/-- Whether an operation fails with documented faults of parsing only, unless something is
misshapen. -/
def DocumentedUnless (M : Prop) (x : Traced α) : Prop := Raml.DocumentedUnless M x.outcome

namespace DocumentedUnless

theorem mono {x : Traced α} (h : x.DocumentedUnless M) (hMN : M → N) : x.DocumentedUnless N :=
  Raml.DocumentedUnless.mono h hMN

theorem pure (a : α) : (Pure.pure a : Traced α).DocumentedUnless M := FailsOnly.ok a

theorem fault {f : Fault} (h : f.isOfParsing = true) :
    (Traced.ofExcept (.error f) : Traced α).DocumentedUnless M :=
  Raml.DocumentedUnless.fault h

theorem bind {x : Traced α} {k : α → Traced β} (hx : x.DocumentedUnless M)
    (hk : ∀ a, x.outcome = .ok a → (k a).DocumentedUnless M) : (x >>= k).DocumentedUnless M := by
  rw [DocumentedUnless, outcome_bind]
  exact Raml.DocumentedUnless.bind hx hk

theorem bindExcept {x : Except Fault α} {k : α → Traced β} (hx : Raml.DocumentedUnless M x)
    (hk : ∀ a, x = .ok a → (k a).DocumentedUnless M) :
    ((x : Traced α) >>= k).DocumentedUnless M :=
  bind (x := Traced.ofExcept x) hx hk

theorem map {x : Traced α} (h : x.DocumentedUnless M) (f : α → β) :
    (f <$> x).DocumentedUnless M := by
  rw [← bind_pure_comp]
  exact h.bind fun a _ => pure (f a)

theorem mapM {f : α → Traced β} {xs : List α} (h : ∀ a ∈ xs, (f a).DocumentedUnless M) :
    (xs.mapM f).DocumentedUnless M := by
  rw [DocumentedUnless, outcome_mapM]
  exact Raml.DocumentedUnless.mapM h

end DocumentedUnless

end Traced

namespace DataType

variable {bound : Bool} {name definition : Value}

theorem tracedNamed_documented (bound : Bool) (name definition : Value) :
    (tracedNamed bound name definition).DocumentedUnless (Misfit definition) := by
  rw [Traced.DocumentedUnless, outcome_tracedNamed]
  unfold buildNamed
  split
  · exact build_documented bound _ definition
  · exact .fault rfl

theorem misfit_of_tracedNamed {t : DataType}
    (h : (tracedNamed bound name definition).outcome = .ok t)
    (ht : Misfit (.map t.declaration)) : Misfit definition := by
  rw [outcome_tracedNamed] at h
  unfold buildNamed at h
  split at h
  · exact misfit_of_build h ht
  · cases h

end DataType

theorem Checked.Blames.mono {α : Type} {M N : Prop} {x : Checked α} (h : x.Blames M)
    (hMN : M → N) : x.Blames N :=
  fun keys hkeys => hMN (h keys hkeys)

/-! ## Collections -/

namespace Value

/-- Whether a value is neither empty nor a mapping. -/
def NoMapping (v : Value) : Prop := v.isEmpty = false ∧ v.map? = none

/-- Whether a value is neither empty nor a collection. -/
def NoCollection (v : Value) : Prop := v.isEmpty = false ∧ v.elements? = none

/-- Whether a value is neither a mapping nor a collection of pairs that one can be copied from. -/
def NoPairs (v : Value) : Prop :=
  v.map? = none ∧ (v.NoCollection ∨ ∃ items, v.elements? = some items ∧ ∃ i ∈ items,
    ∀ k w, i.pair ≠ .ok (k, w))

/-- Whether a value is neither empty nor a mapping, or is misshapen as one. -/
def Misshapen (M : Mapping → Prop) (v : Value) : Prop :=
  v.NoMapping ∨ ∃ d, v.optionalEntries = .ok d ∧ M d

theorem optionalEntries_eq_error {v : Value} {f : Fault} (h : v.optionalEntries = .error f) :
    f = .notMapping ∧ v.NoMapping := by
  unfold optionalEntries at h
  split at h
  · cases h
  · next hempty =>
      cases v with
      | map entries => cases h
      | _ => exact ⟨(Except.error.inj h).symm, by simpa using hempty, rfl⟩

theorem optionalEntries_documented (v : Value) :
    DocumentedUnless v.NoMapping v.optionalEntries := by
  intro f h
  obtain ⟨rfl, hv⟩ := optionalEntries_eq_error h
  exact .inr ⟨.notMapping, hv⟩

theorem eq_map_of_optionalEntries {v : Value} {d : Mapping} (h : v.optionalEntries = .ok d)
    {e : Value × Value} (he : e ∈ d) : v = .map d := by
  unfold optionalEntries at h
  split at h
  · obtain rfl := Except.ok.inj h
    cases he
  · split at h
    · rw [Except.ok.inj h]
    · cases h

theorem optionalElements_documented (v : Value) :
    DocumentedUnless v.NoCollection v.optionalElements := by
  unfold optionalElements
  split
  · exact FailsOnly.ok _
  · next hempty =>
      split
      · exact FailsOnly.ok _
      · next hnone => exact .shape .wrongKind ⟨by simpa using hempty, hnone⟩

theorem pair_documented (v : Value) : DocumentedUnless (∀ k w, v.pair ≠ .ok (k, w)) v.pair := by
  have hshape : FailsOnly Fault.OfShape v.pair := by
    unfold pair
    split
    · exact FailsOnly.error_iff.2 .wrongKind
    · split
      · exact FailsOnly.ok _
      · exact FailsOnly.error_iff.2 .wrongKind
    · exact FailsOnly.error_iff.2 .badValue
  exact (DocumentedUnless.of_shape hshape).mono fun h k w => h (k, w)

theorem optionalCopy_documented (v : Value) : DocumentedUnless v.NoPairs v.optionalCopy := by
  unfold optionalCopy
  split
  · exact FailsOnly.ok _
  · next hmap =>
      have hmap : v.map? = none := by
        cases v with
        | map entries => exact absurd rfl (hmap entries)
        | _ => rfl
      refine .bind ((optionalElements_documented v).mono fun h => ⟨hmap, .inl h⟩) fun items hi => ?_
      refine .bind (.mapM fun i hmem => (pair_documented i).mono fun h => ?_) fun _ _ =>
        FailsOnly.ok _
      unfold optionalElements at hi
      split at hi
      · obtain rfl := Except.ok.inj hi
        cases hmem
      · split at hi
        · next items' hitems =>
            obtain rfl := Except.ok.inj hi
            exact ⟨hmap, .inr ⟨_, hitems, i, hmem, h⟩⟩
        · cases hi

theorem Misshapen.documented {α : Type} {M : Mapping → Prop} {v : Value} {k : Mapping → Traced α}
    (h : ∀ d, (k d).DocumentedUnless (M d)) :
    ((v.optionalEntries : Traced Mapping) >>= k).DocumentedUnless (v.Misshapen M) :=
  .bindExcept ((optionalEntries_documented v).mono .inl) fun d hd =>
    (h d).mono fun hM => .inr ⟨d, hd, hM⟩

theorem Misshapen.documentedEach {α β : Type} {M : Value × Value → Prop}
    {k : Value × Value → Traced α} (h : ∀ e, (k e).DocumentedUnless (M e)) (v : Value)
    (make : List α → β) :
    ((v.optionalEntries : Traced Mapping) >>= fun entries => do
      let parts ← entries.mapM k
      return make parts).DocumentedUnless
        (v.Misshapen fun entries => ∃ e ∈ entries, M e) := by
  refine documented fun entries => .bind (.mapM fun e he => ?_) fun parts _ => .pure _
  exact (h e).mono fun hM => ⟨e, he, hM⟩

theorem Misshapen.records {α : Type} {M : Value → Value → Prop} {read : Value → Value → Traced α}
    (h : ∀ key w, (read key w).DocumentedUnless (M key w)) (v : Value) :
    (v.records read).DocumentedUnless (v.Misshapen fun entries => ∃ e ∈ entries, M e.1 e.2) :=
  documentedEach (fun e => (h e.1 e.2).bind fun a _ => .pure (e.1.shown, a)) v _

end Value

/-! ## Texts -/

/-- Whether a value under a key is neither absent nor a text. -/
def Mapping.NoText (d : Mapping) (key : String) : Prop :=
  Field.optional Field.text? (d.field key) = none

theorem Mapping.NoText.hasBadFacet {d : Mapping} {s : String} (h : d.NoText s)
    (hs : Facet.fits s = fun v => (Field.optional Field.text? v).isSome) : d.HasBadFacet := by
  cases hf : d.field? s with
  | none => simp [NoText, Mapping.field, hf, Field.optional] at h
  | some v =>
      rw [NoText, Mapping.field_of_field? hf] at h
      exact ⟨s, v, Mapping.mem_of_field? hf, by simp [hs, h]⟩

theorem Field.of_optional_eq_none {α : Type} {kind : Value → Option α} {v : Value}
    (h : Field.optional kind v = none) : kind v = none := by
  cases v with
  | null => cases h
  | _ => exact Option.map_eq_none_iff.1 h

/-- A text with another value in its place where it is absent. -/
theorem Field.given_getD_blames {key s : String} {d : Mapping} {other : Value} :
    (Field.given key ((d.field? s).getD other) (Field.optional Field.text?)).Blames
      (Field.text? other = none ∨ d.NoText s) := by
  refine given_blames fun h => ?_
  cases hf : d.field? s with
  | none =>
      rw [hf] at h
      exact .inl (of_optional_eq_none h)
  | some v =>
      rw [hf] at h
      exact .inr (by rwa [Mapping.NoText, Mapping.field_of_field? hf])

/-! ## Parameters -/

/-- How a mapping is declared: by nothing at all, by its type alone, or in full. -/
inductive Declaration.Writes : Value → Mapping → Prop
  | nothing : Writes .null []
  | type (expression : String) : Writes (.text expression) [(.text "type", .text expression)]
  | full (d : Mapping) : Writes (.map d) d

theorem Declaration.Writes.misfit {definition : Value} {d : Mapping} (h : Writes definition d)
    {s : String} {v : Value} (hm : (.text s, v) ∈ d) (hv : MisfitUnder s v) :
    Misfit definition := by
  cases h with
  | nothing => cases hm
  | type expression =>
      obtain ⟨rfl, rfl⟩ : s = "type" ∧ v = .text expression := by simpa using hm
      obtain ⟨t, ht, hlong⟩ := hv.of_type
      exact ht ▸ .text hlong
  | full => exact .entry hm hv

namespace Parameter

def Misshapen (key definition : Value) : Prop :=
  Field.text? key = none ∨ Misfit definition

variable {registry : Option Registry} {key definition : Value} {d : Mapping}

theorem writes_of_declaration (h : declaration key definition = .ok d) :
    Declaration.Writes definition d := by
  cases definition with
  | null =>
      obtain rfl := Except.ok.inj h
      exact .nothing
  | text expression =>
      obtain rfl := Except.ok.inj h
      exact .type expression
  | map entries =>
      obtain rfl := Except.ok.inj h
      exact .full _
  | _ => cases h

theorem declaration_documented {M : Prop} (key definition : Value) :
    DocumentedUnless M (declaration key definition) := by
  unfold declaration
  split
  · exact FailsOnly.ok _
  · exact FailsOnly.ok _
  · exact FailsOnly.ok _
  · exact .fault rfl

theorem expression_documented {M : Prop} (key : Value) (d : Mapping) :
    DocumentedUnless M (expression key d) := by
  unfold expression
  dsimp only
  split
  · exact FailsOnly.ok _
  · split
    · exact FailsOnly.ok _
    · exact .fault rfl

theorem expression_eq_ok {written : String} (h : expression key d = .ok written) :
    written = "string" ∨ (.text "type", .text written) ∈ d := by
  unfold expression at h
  dsimp only at h
  split at h
  · exact .inl (Except.ok.inj h).symm
  · split at h
    · next e he =>
        obtain rfl := Except.ok.inj h
        cases hf : d.field? "type" with
        | none => simp [Mapping.field, hf] at he
        | some v =>
            rw [Mapping.field_of_field? hf] at he
            exact .inr (he ▸ Mapping.mem_of_field? hf)
    · cases h

theorem buildValueType_documented (registry : Option Registry) (key : Value) (d : Mapping) :
    (buildValueType registry key d).DocumentedUnless (Misfit (.map d)) := by
  unfold buildValueType
  refine .bind (DataType.tracedNamed_documented _ key (.map d)) fun t _ => ?_
  split
  · exact .fault rfl
  · exact .bindExcept (DataType.resolve_documented _ t) fun _ _ => .pure t
  · exact .pure t

theorem read_blames (key : Value) (type : String) (d : Mapping) (valueType : Option DataType) :
    (read key type d valueType).Blames (Field.text? key = none ∨ d.HasBadFacet) := by
  unfold read
  refine .seq (.seq (.seq (.seq (.seq (.seq (.seq (.seq (.seq (.seq (.seq (.seq (.seq (.seq
    (.map (Field.given_blames .inl) _) (.ok type)) ?_) ?_) ?_) ?_) ?_) ?_) ?_) ?_) ?_) ?_) ?_) ?_)
    ?_
  case refine_13 =>
    cases valueType with
    | some t => exact .ok _
    | none => exact .mono (Field.readOptional_blames rfl rfl) .inr
  all_goals exact .mono (Field.read_blames rfl rfl) .inr

theorem unmarked_isInfix (written : String) :
    (if Text.endsIn '?' written = true then Text.trim (Text.removeSuffix '?' written)
      else written).toList <:+: written.toList := by
  split
  · have hprefix := Text.removeSuffix_isPrefix '?' written
    exact (Text.trim_infix _).trans hprefix.isInfix
  · exact List.infix_rfl

/-- A part of the type expression in its place brings no misfit. -/
theorem misfit_of_setType {written type : String} (hd : declaration key definition = .ok d)
    (hwritten : expression key d = .ok written) (hin : type.toList <:+: written.toList)
    (h : Misfit (.map (d.setField "type" (.text type)))) : Misfit definition := by
  have hwrites := writes_of_declaration hd
  cases h with
  | @entry _ s v hm hv =>
      rcases Mapping.mem_setField hm with hm | ⟨rfl, rfl⟩
      · exact hwrites.misfit hm hv
      · obtain ⟨t, ht, hlong⟩ := hv.of_type
        cases ht
        have hlong := hlong.of_infix hin
        rcases expression_eq_ok hwritten with rfl | hm
        · exact absurd hlong (Declaration.not_hasLongNumber (by decide))
        · exact hwrites.misfit hm (.type (.inl rfl) hlong)

theorem read_documented (hd : declaration key definition = .ok d) (type : String)
    (declared required : Bool) (valueType : Option DataType) :
    (Traced.ofExcept ((read key type (if declared then d else
      d.setField "required" (.bool required)) valueType).toExcept .parameter)).DocumentedUnless
        (Misshapen key definition) := by
  have hwrites := writes_of_declaration hd
  refine DocumentedUnless.mono ((read_blames key type _ valueType).documented _) ?_
  rintro (hkey | ⟨s, v, hm, hv⟩)
  · exact .inl hkey
  · have hm : (.text s, v) ∈ d ∨ s = "required" ∧ v = .bool required := by
      cases declared with
      | true => exact .inl hm
      | false => exact Mapping.mem_setField hm
    rcases hm with hm | ⟨rfl, rfl⟩
    · exact .inr (hwrites.misfit hm (.facet hv))
    · cases hv

theorem ofDefinition_documented (registry : Option Registry) (required : Bool)
    (key definition : Value) :
    (ofDefinition registry required key definition).DocumentedUnless
      (Misshapen key definition) := by
  unfold ofDefinition
  refine .bindExcept (declaration_documented key definition) fun d hd => ?_
  refine .bindExcept (expression_documented key d) fun written hwritten => ?_
  have hin := unmarked_isInfix written
  dsimp only
  generalize (if Text.endsIn '?' written = true then Text.trim (Text.removeSuffix '?' written)
    else written) = type at hin ⊢
  have hread := read_documented hd type (d.hasField "required")
    (required && !Text.endsIn '?' written)
  split
  · exact .bind (.pure none) fun valueType _ => hread valueType
  · refine .bind (.map ?_ some) fun valueType _ => hread valueType
    have htype := buildValueType_documented registry key (d.setField "type" (.text type))
    exact htype.mono fun h => .inr (misfit_of_setType hd hwritten hin h)

end Parameter

/-- Whether a value is neither empty nor a mapping, or one with a parameter that cannot be read. -/
def Parameters.Misshapen (v : Value) : Prop :=
  v.Misshapen fun entries => ∃ e ∈ entries, Parameter.Misshapen e.1 e.2

theorem Parameter.ofOptional_documented (registry : Option Registry) (required : Bool) (v : Value) :
    (ofOptional registry required v).DocumentedUnless (Parameters.Misshapen v) :=
  Value.Misshapen.records (ofDefinition_documented registry required) v

/-! ## Annotations -/

/-- The use of an annotation fails with documented faults only. -/
theorem Annotations.ofEntries_documented {M : Prop} (types : AnnotationTypes)
    (target : AnnotationTarget) (entries : Mapping) :
    DocumentedUnless M (Annotations.ofEntries types target entries) := by
  refine .bind (.mapM fun e _ => ?_) fun _ _ => FailsOnly.ok _
  unfold Annotation.ofUse
  split
  · exact .fault rfl
  · split
    · exact FailsOnly.ok _
    · exact .fault rfl

namespace AnnotationType

inductive Misshapen (key : Value) : Value → Prop
  | key {definition : Value} (h : Field.text? key = none) : Misshapen key definition
  | type {definition : Value} (h : Misfit definition) : Misshapen key definition
  | declaration {definition : Value} (h : ∀ d, declaration definition ≠ .ok d) :
      Misshapen key definition
  | targets {d : Mapping} (h : (d.field "allowedTargets").NoCollection) :
      Misshapen key (.map d)

variable {definition : Value} {d : Mapping}

theorem writes_of_declaration (h : declaration definition = .ok d) :
    Declaration.Writes definition d := by
  cases definition with
  | null =>
      obtain rfl := Except.ok.inj h
      exact .nothing
  | text expression =>
      obtain rfl := Except.ok.inj h
      exact .type expression
  | map entries =>
      obtain rfl := Except.ok.inj h
      exact .full _
  | _ => cases h

theorem declaration_documented (definition : Value) :
    DocumentedUnless (∀ d, declaration definition ≠ .ok d) (declaration definition) := by
  refine .of_shape ?_
  cases definition with
  | null | text | map => exact FailsOnly.ok _
  | _ => exact FailsOnly.error_iff.2 .notMapping

theorem targetsOf_documented (v : Value) : DocumentedUnless v.NoCollection (targetsOf v) := by
  unfold targetsOf
  split
  · exact FailsOnly.ok _
  · exact Value.optionalElements_documented v

theorem read_blames (key : Value) (d : Mapping) (targets : List AnnotationTarget)
    (valueType : Option DataType) :
    (read key d targets valueType).Blames (Field.text? key = none ∨ d.HasBadFacet) := by
  refine .seq (.seq (.seq (.seq (.map (Field.given_blames .inl) _) ?_) ?_) (.ok targets))
    (.ok valueType)
  · exact Field.given_getD_blames.mono fun h => h.imp_right fun h => h.hasBadFacet rfl
  · exact Field.given_blames fun h => .inr (Mapping.NoText.hasBadFacet h rfl)

theorem ofDefinition_documented (registry : Option Registry) (key definition : Value) :
    (ofDefinition registry key definition).DocumentedUnless (Misshapen key definition) := by
  unfold ofDefinition
  refine .bindExcept ((declaration_documented definition).mono .declaration) fun d hd => ?_
  have hwrites := writes_of_declaration hd
  refine .bindExcept ((targetsOf_documented _).mono fun h => ?_) fun words _ => ?_
  · cases hwrites with
    | nothing | type => cases h.1
    | full => exact .targets h
  refine .bindExcept (.mapM fun word _ => ?_) fun targets _ => ?_
  · unfold AnnotationTarget.ofValue
    split
    · exact FailsOnly.ok _
    · exact .fault rfl
  have hread : ∀ valueType, (Traced.ofExcept ((read key d targets valueType).toExcept
      .annotationType)).DocumentedUnless (Misshapen key definition) := by
    intro valueType
    refine DocumentedUnless.mono ((read_blames key d targets valueType).documented _) ?_
    rintro (hkey | ⟨s, v, hm, hv⟩)
    · exact .key hkey
    · exact .type (hwrites.misfit hm (.facet hv))
  dsimp only
  split
  · exact .bind (.pure none) fun valueType _ => hread valueType
  · refine .bind (.map ?_ some) fun valueType _ => hread valueType
    refine (DataType.tracedNamed_documented _ key _).mono fun h => ?_
    cases h with
    | entry hm hv => exact .type (hwrites.misfit (List.mem_of_mem_filter hm) hv)

end AnnotationType

/-! ## Security -/

namespace SecurityDescription

inductive Misshapen (d : Mapping) : Prop
  | headers (h : Parameters.Misshapen (d.field "headers"))
  | queryParameters (h : Parameters.Misshapen (d.field "queryParameters"))
  | responses (h : (d.field "responses").NoMapping)

theorem ofDefinition_documented (registry : Option Registry) (v : Value) :
    (ofDefinition registry v).DocumentedUnless (v.Misshapen Misshapen) := by
  refine Value.Misshapen.documented fun d => ?_
  refine .bind ((Parameter.ofOptional_documented registry false _).mono .headers) fun _ _ => ?_
  refine .bind ((Parameter.ofOptional_documented registry false _).mono .queryParameters)
    fun _ _ => ?_
  refine .bindExcept ?_ fun _ _ => .pure _
  exact .bind ((Value.optionalEntries_documented _).mono .responses) fun _ _ => FailsOnly.ok _

end SecurityDescription

namespace SecurityScheme

inductive Misshapen (key : Value) (d : Mapping) : Prop
  | key (h : Field.text? key = none)
  | text {s : String} (hs : s ∈ ["type", "displayName", "description"]) (h : d.NoText s)
  | describedBy (h : (d.field "describedBy").Misshapen SecurityDescription.Misshapen)
  | settings (h : (d.field "settings").NoPairs)
  | setting {settings : Mapping} (hs : (d.field "settings").optionalCopy = .ok settings)
      (h : Field.textKeyed? (.map settings) = none)

theorem ofDefinition_documented (registry : Option Registry) (key definition : Value) :
    (ofDefinition registry key definition).DocumentedUnless
      (∃ d, definition.optionalEntries = .ok d ∧ Misshapen key d) := by
  unfold ofDefinition
  cases hd : definition.optionalEntries with
  | error f => exact .bind (.fault rfl) nofun
  | ok d =>
      refine .bind (.pure d) fun d' hd' => ?_
      obtain rfl := Except.ok.inj hd'
      refine Traced.DocumentedUnless.mono (M := Misshapen key d) ?_ fun h => ⟨d, rfl, h⟩
      refine .bind ((SecurityDescription.ofDefinition_documented registry _).mono .describedBy)
        fun describedBy _ => ?_
      refine .bindExcept ((Value.optionalCopy_documented _).mono .settings) fun settings hs => ?_
      refine Checked.Blames.documented ?_ _
      refine .seq (.seq (.seq (.seq (.seq (.map (Field.given_blames .key) _) ?_) ?_) ?_)
        (.ok describedBy)) (Field.given_blames (.setting hs))
      · exact Field.given_blames (.text (by decide))
      · exact Field.given_getD_blames.mono fun h => h.elim .key (.text (by decide))
      · exact Field.given_blames (.text (by decide))

end SecurityScheme

namespace SecuritySchemes

/-- Whether an entry that secures something can name no scheme. -/
inductive BadEntry : Value → Prop
  | entry {v : Value} (hmap : v.map? = none) (h : v.isKey = false) : BadEntry v
  | name {name overrides : Value} {rest : Mapping} (h : name.isKey = false) :
      BadEntry (.map ((name, overrides) :: rest))
  | overrides {name overrides : Value} {rest : Mapping} (h : overrides.NoMapping) :
      BadEntry (.map ((name, overrides) :: rest))

/-- Whether one of the entries that secure something can name no scheme. -/
def Misshapen (v : Value) : Prop := ∃ entry ∈ entriesOf v, BadEntry entry

theorem find_documented (schemes : SecuritySchemes) (name : Value) :
    DocumentedUnless (name.isKey = false) (schemes.find name) := by
  unfold find
  split
  · split
    · exact FailsOnly.ok _
    · exact .fault rfl
  · cases hkey : name.isKey with
    | true => exact .fault rfl
    | false => exact .shape .wrongKind rfl

theorem withSettings_documented (s : SecurityScheme) (overrides : Value) :
    DocumentedUnless overrides.NoMapping (s.withSettings overrides) := by
  unfold SecurityScheme.withSettings
  cases hd : overrides.optionalEntries with
  | ok d => exact FailsOnly.ok _
  | error f => exact .shape .wrongKind (Value.optionalEntries_eq_error hd).2

theorem ofEntry_documented (schemes : SecuritySchemes) (entry : Value) :
    DocumentedUnless (BadEntry entry) (schemes.ofEntry entry) := by
  unfold ofEntry
  split
  · exact FailsOnly.ok _
  · next hempty =>
      split
      · refine .bind ((find_documented schemes _).mono .name) fun s _ => ?_
        exact (withSettings_documented s _).mono .overrides
      · next hmap =>
          refine (find_documented schemes entry).mono (.entry ?_)
          cases entry with
          | map entries =>
              cases entries with
              | nil => exact absurd rfl hempty
              | cons e rest => exact absurd rfl (hmap e.1 e.2 rest)
          | _ => rfl

theorem resolve_documented (schemes : SecuritySchemes) (v : Value) :
    DocumentedUnless (Misshapen v) (schemes.resolve v) :=
  .bind (.mapM fun entry he => (ofEntry_documented schemes entry).mono fun h => ⟨entry, he, h⟩)
    fun _ _ => FailsOnly.ok _

end SecuritySchemes

/-! ## Bodies -/

namespace Body

/-- Whether a body gives its type in no way that can be looked for. -/
def Untypable (definition : Value) : Prop :=
  definition.isNull = false ∧ ∀ b, isTyped definition ≠ .ok b

inductive Misshapen (mediaType definition : Value) : Prop
  | mediaType (h : Field.text? mediaType = none)
  | untypable (h : Untypable definition)
  | type (h : Misfit definition)

theorem isTyped_documented {definition : Value} (hnull : definition.isNull = false) :
    DocumentedUnless (Untypable definition) (isTyped definition) := by
  have hshape : FailsOnly Fault.OfShape (isTyped definition) := by
    unfold isTyped
    split
    · exact FailsOnly.ok _
    · exact FailsOnly.error_iff.2 .wrongKind
    · split
      · exact FailsOnly.ok _
      · exact FailsOnly.error_iff.2 .wrongKind
  exact (DocumentedUnless.of_shape hshape).mono fun h => ⟨hnull, h⟩

theorem buildType_documented (d : Declarations) (name : String) (definition : Value) :
    (buildType d name definition).DocumentedUnless (Misfit definition) := by
  refine .bind (DataType.build_documented true name definition) fun t _ => ?_
  split
  · exact .bindExcept (DataType.resolve_documented _ _) fun _ _ => .pure _
  · exact .pure t

theorem read_blames (mediaType : Value) (entries : Mapping) (type : Option DataType) :
    (read mediaType entries type).Blames
      (Field.text? mediaType = none ∨ entries.NoText "description") :=
  .seq (.seq (.seq (.map (Field.given_blames .inl) _) (.ok type)) (.ok _))
    (Field.given_blames .inr)

theorem ofDefinition_documented (d : Declarations) (name : String) (mediaType definition : Value) :
    (ofDefinition d name mediaType definition).DocumentedUnless
      (Misshapen mediaType definition) := by
  unfold ofDefinition
  split
  · refine DocumentedUnless.mono ((read_blames mediaType [] none).documented _) ?_
    exact fun h => h.elim .mediaType nofun
  · next hnull =>
      have hnull : definition.isNull = false := by
        cases definition with
        | null => exact absurd rfl hnull
        | _ => rfl
      have hread : ∀ type, (Traced.ofExcept ((read mediaType (definition.map?.getD [])
          type).toExcept .body)).DocumentedUnless (Misshapen mediaType definition) := by
        intro type
        refine DocumentedUnless.mono ((read_blames mediaType _ type).documented _) fun h => ?_
        refine h.elim .mediaType fun hdescription => .type ?_
        cases definition with
        | map entries =>
            obtain ⟨s, v, hm, hv⟩ := Mapping.NoText.hasBadFacet hdescription rfl
            exact .entry hm (.facet hv)
        | _ => cases hdescription
      refine .bindExcept ((isTyped_documented hnull).mono .untypable) fun typed _ => ?_
      split
      · refine .bind (.map ?_ some) fun type _ => hread type
        exact (buildType_documented d name definition).mono .type
      · exact .bind (.pure none) fun type _ => hread type

end Body

namespace Bodies

inductive Misshapen (mediaType : Value) : Value → Prop
  | usual {definition : Value} (hempty : mediaType.isEmpty = false)
      (h : Field.text? mediaType = none) : Misshapen mediaType definition
  | type {definition : Value} (h : Misfit definition) : Misshapen mediaType definition
  | entry {entries : Mapping} {e : Value × Value} (he : e ∈ entries)
      (h : Body.Misshapen e.1 e.2) : Misshapen mediaType (.map entries)

end Bodies

namespace Body

theorem ofUsual_documented (d : Declarations) (name : String) {definition : Value}
    (htyped : ∃ b, isTyped definition = .ok b) :
    (ofUsual d name definition).DocumentedUnless (Bodies.Misshapen d.mediaType definition) := by
  unfold ofUsual
  refine .bind (.mono (ofDefinition_documented d name _ definition) fun h => ?_) fun _ _ => .pure _
  cases h with
  | mediaType h =>
      split at h
      · cases h
      · next hempty => exact .usual (by simpa using hempty) h
  | untypable h =>
      obtain ⟨b, hb⟩ := htyped
      exact absurd hb (h.2 b)
  | type h => exact .type h

theorem ofAll_documented (d : Declarations) (name : String) (definition : Value) :
    (ofAll d name definition).DocumentedUnless (Bodies.Misshapen d.mediaType definition) := by
  unfold ofAll
  split
  · exact ofUsual_documented d name ⟨true, rfl⟩
  · split
    · exact ofUsual_documented d name ⟨_, rfl⟩
    · refine .map (.mapM fun e he => ?_) ofList
      exact (ofDefinition_documented d name e.1 e.2).mono (.entry he)
  · exact .fault rfl

end Body

/-! ## Responses and methods -/

namespace Response

inductive Misshapen (mediaType : Value) (d : Mapping) : Prop
  | headers (h : Parameters.Misshapen (d.field "headers"))
  | body (h : Bodies.Misshapen mediaType (d.field "body"))
  | description (h : d.NoText "description")

theorem statusOf_documented (code : Value) :
    DocumentedUnless (∀ status, statusOf code ≠ .ok status) (statusOf code) := by
  refine .of_shape fun f hf => ?_
  unfold statusOf at hf
  dsimp only at hf
  split at hf
  · cases hf
  · cases hf
  · cases hf
    exact .overflow
  · split at hf
    · cases hf
    · cases hf
      exact .badValue
  · split at hf
    · cases hf
    · cases hf
      exact .badValue
  · split at hf
    · split at hf
      · cases hf
      · cases hf
        exact .badValue
    · cases hf
      exact .badValue
  · cases hf
    exact .wrongKind

theorem ofDefinition_documented (d : Declarations) (verb : String) (code definition : Value) :
    (ofDefinition d verb code definition).DocumentedUnless
      ((∀ status, statusOf code ≠ .ok status) ∨
        definition.Misshapen (Misshapen d.mediaType)) := by
  refine .bindExcept ((statusOf_documented code).mono .inl) fun status _ => ?_
  refine Traced.DocumentedUnless.mono (Value.Misshapen.documented fun entries => ?_) .inr
  refine .bind ((Parameter.ofOptional_documented _ false _).mono .headers) fun headers _ => ?_
  dsimp only
  refine .bind ((Body.ofAll_documented d _ _).mono fun h => .body ?_) fun bodies _ => ?_
  -- a response without a body is read as one with an empty mapping, which has no misfit
  · split at h
    · cases h with
      | usual hempty hno => exact .usual hempty hno
      | type hmisfit =>
          cases hmisfit with
          | entry hm hv => cases hm
      | entry he hbody => cases he
    · exact h
  · exact ((Field.given_blames .description).map _).documented _

end Response

namespace Method

/-- Whether a value is no collection, or one with something that is no text. -/
def BadProtocols (v : Value) : Prop :=
  v.NoCollection ∨ ∃ items, v.optionalElements = .ok items ∧ ∃ i ∈ items, i.text? = none

theorem protocolOf_documented (v : Value) :
    DocumentedUnless (v.text? = none) (protocolOf v) := by
  cases v with
  | text s => exact FailsOnly.ok _
  | bytes b => exact FailsOnly.ok _
  | _ => exact .shape .notMapping rfl

theorem readProtocols_documented (v : Value) :
    DocumentedUnless (BadProtocols v) (readProtocols v) := by
  refine .bind ((Value.optionalElements_documented v).mono .inl) fun items hitems => ?_
  exact .mapM fun i hi => (protocolOf_documented i).mono fun h => .inr ⟨items, hitems, i, hi, h⟩

theorem badProtocols_of_texts? {v : Value} {protocols : List Value}
    (h : readProtocols v = .ok protocols) (htexts : Field.texts? (.list protocols) = none) :
    BadProtocols v := by
  obtain ⟨items, hitems, hprotocols⟩ := Except.bind_eq_ok_iff.1 h
  obtain ⟨p, hp, hnone⟩ : ∃ p ∈ protocols, Field.text? p = none := exists_of_mapM_eq_none htexts
  obtain ⟨i, hi, hread⟩ := exists_of_forall₂_right (forall₂_of_mapM hprotocols) hp
  refine .inr ⟨items, hitems, i, hi, ?_⟩
  cases i with
  | text s =>
      obtain rfl := Except.ok.inj hread
      cases hnone
  | _ => rfl

inductive Misshapen (mediaType : Value) (d : Mapping) : Prop
  | text {s : String} (hs : s ∈ ["displayName", "description"]) (h : d.NoText s)
  | headers (h : Parameters.Misshapen (d.field "headers"))
  | queryParameters (h : Parameters.Misshapen (d.field "queryParameters"))
  | protocols (h : BadProtocols (d.field "protocols"))
  | securedBy {v : Value} (hv : d.field? "securedBy" = some v) (h : SecuritySchemes.Misshapen v)
  | body (h : Bodies.Misshapen mediaType (d.field "body"))
  | responses (h : (d.field "responses").Misshapen fun responses => ∃ e ∈ responses,
      (∀ status, Response.statusOf e.1 ≠ .ok status) ∨ e.2.Misshapen (Response.Misshapen mediaType))

variable {d : Declarations}

theorem secured_documented (outer : SecuritySchemes) (entries : Mapping) :
    DocumentedUnless (∃ v, entries.field? "securedBy" = some v ∧ SecuritySchemes.Misshapen v)
      (secured d outer entries) := by
  unfold secured
  split
  · exact FailsOnly.ok _
  · next v hv =>
      refine .bind ?_ fun _ _ => FailsOnly.ok _
      exact (SecuritySchemes.resolve_documented _ v).mono fun h => ⟨v, hv, h⟩

theorem readResponses_documented (d : Declarations) (verb : String) (v : Value) :
    (readResponses d verb v).DocumentedUnless (v.Misshapen fun responses => ∃ e ∈ responses,
      (∀ status, Response.statusOf e.1 ≠ .ok status) ∨
        e.2.Misshapen (Response.Misshapen d.mediaType)) := by
  have heach := fun e : Value × Value => Response.ofDefinition_documented d verb e.1 e.2
  exact Value.Misshapen.documentedEach heach v _

theorem ofDefinition_documented (schemes : SecuritySchemes) (verb : String) (definition : Value) :
    (ofDefinition d schemes verb definition).DocumentedUnless
      (∃ own, definition.optionalEntries = .ok own ∧ Misshapen d.mediaType own) := by
  unfold ofDefinition
  cases hown : definition.optionalEntries with
  | error f => exact .bind (.fault rfl) nofun
  | ok own =>
      refine .bind (.pure own) fun own' hown' => ?_
      obtain rfl := Except.ok.inj hown'
      refine Traced.DocumentedUnless.mono (M := Misshapen d.mediaType own) ?_ fun h => ⟨own, rfl, h⟩
      dsimp only
      refine .bind ((Parameter.ofOptional_documented _ false _).mono .headers) fun headers _ => ?_
      refine .bind ((Parameter.ofOptional_documented _ false _).mono .queryParameters)
        fun queryParameters _ => ?_
      refine .bindExcept ((readProtocols_documented _).mono .protocols) fun protocols hp => ?_
      refine .bind ?_ fun m _ => ?_
      · refine Checked.Blames.documented ?_ _
        refine .seq (.seq (.map ?_ _) ?_) ?_
        · exact Field.given_blames (.text (by decide))
        · exact Field.given_blames (.text (by decide))
        · exact Field.given_blames fun h => .protocols (badProtocols_of_texts? hp h)
      refine .bindExcept ((secured_documented schemes own).mono fun ⟨v, hv, h⟩ =>
        .securedBy hv h) fun securitySchemes _ => ?_
      refine .bindExcept (Annotations.ofEntries_documented _ _ own) fun annotations _ => ?_
      have hrest : ∀ bodies, (do
          let responses ← readResponses d (Text.upper verb) (own.field "responses")
          return { m with securitySchemes, annotations, bodies, responses } :
            Traced Method).DocumentedUnless (Misshapen d.mediaType own) := fun bodies =>
        .bind ((readResponses_documented d _ _).mono .responses) fun _ _ => .pure _
      split
      · exact .bind (.pure []) fun bodies _ => hrest bodies
      · exact .bind ((Body.ofAll_documented d _ _).mono .body) fun bodies _ => hrest bodies

end Method

/-! ## Resources -/

namespace Resource

/-- Whether a resource, one of its methods or a nested resource is misshapen, where the usual media
type is the given one. -/
inductive Misshapen (mediaType : Value) : Mapping → Prop
  | displayName {d : Mapping} {v : Value} (hv : d.field? "displayName" = some v)
      (h : Field.text? v = none) : Misshapen mediaType d
  | description {d : Mapping} (h : d.NoText "description") : Misshapen mediaType d
  | parameters {d : Mapping} {s : String} (hs : s ∈ ["baseUriParameters", "uriParameters"])
      (h : Parameters.Misshapen (d.field s)) : Misshapen mediaType d
  | securedBy {d : Mapping} {v : Value} (hv : d.field? "securedBy" = some v)
      (h : SecuritySchemes.Misshapen v) : Misshapen mediaType d
  | method {d own : Mapping} {e : Value × Value} (he : e ∈ methodEntries d)
      (hown : e.2.optionalEntries = .ok own) (h : Method.Misshapen mediaType own) :
      Misshapen mediaType d
  | nested {d own : Mapping} {e : Value × Value} (he : e ∈ nestedEntries d)
      (hown : e.2.optionalEntries = .ok own) (h : Misshapen mediaType own) :
      Misshapen mediaType d

variable {d : Declarations}

theorem head_documented (inherited : Inherited) (uri relativeUri : String) (entries : Mapping) :
    (head d inherited uri relativeUri entries).DocumentedUnless
      (Misshapen d.mediaType entries) := by
  unfold head
  refine .bind ?_ fun r _ => ?_
  · refine Checked.Blames.documented ?_ _
    refine .seq (.map (Field.given_blames fun h => ?_) _) (Field.given_blames .description)
    cases hv : entries.field? "displayName" with
    | none =>
        rw [hv] at h
        cases h
    | some v =>
        rw [hv] at h
        exact .displayName hv h
  refine .bind ((Parameter.ofOptional_documented _ true _).mono (.parameters (by decide)))
    fun base _ => ?_
  refine .bind ((Parameter.ofOptional_documented _ true _).mono (.parameters (by decide)))
    fun own _ => ?_
  refine .bindExcept ((Method.secured_documented _ entries).mono fun ⟨v, hv, h⟩ =>
    .securedBy hv h) fun schemes _ => ?_
  exact .bindExcept (Annotations.ofEntries_documented _ _ entries) fun _ _ => .pure _

theorem finished_documented {M : Prop} (r : Resource) : (finished r).DocumentedUnless M :=
  .bind (FailsOnly.ok _) fun _ _ => .pure r

theorem addAll_documented {M : Prop} {inherited : Inherited} {entries : Mapping}
    (h : ∀ e ∈ entries, ∀ r, (addOne d inherited r e).DocumentedUnless M) (r : Resource) :
    (addAll d inherited r entries).DocumentedUnless M := by
  induction entries generalizing r with
  | nil =>
      rw [addAll]
      exact .pure r
  | cons e rest ih =>
      rw [addAll]
      exact .bind (h e List.mem_cons_self r) fun r _ =>
        ih (fun e' he' => h e' (List.mem_cons_of_mem e he')) r

/-- A resource is built unless it is misshapen, or fails with a documented fault. -/
theorem build_documented (inherited : Inherited) (uri relativeUri : String) (definition : Value) :
    (build d inherited uri relativeUri definition).DocumentedUnless
      (∃ own, definition.optionalEntries = .ok own ∧ Misshapen d.mediaType own) := by
  -- nested resources weigh less than the definition they stand in; what is inherited varies
  generalize hw : definition.weight = w
  induction w using Nat.strongRecOn generalizing definition inherited uri relativeUri with
  | ind w ih =>
      unfold build
      split
      · next entries =>
          refine Traced.DocumentedUnless.mono (M := Misshapen d.mediaType entries) ?_ fun h =>
            ⟨entries, optionalEntries_map entries, h⟩
          refine .bind (head_documented inherited uri relativeUri entries) fun r _ => ?_
          refine .bind (addAll_documented (fun e he r' => ?_) r) fun r _ => finished_documented r
          obtain ⟨k, v⟩ := e
          rw [addOne]
          split
          · next hslash =>
              have hlt := Value.weight_lt_of_mem he
              have hnested := ih v.weight (hw ▸ hlt) (.ofResource r) (r'.uri ++ k.shown) k.shown v
                rfl
              refine .bind (hnested.mono ?_) fun _ _ => .pure _
              rintro ⟨own, hown, h⟩
              exact .nested (List.mem_filter.2 ⟨he, hslash⟩) hown h
          · next hslash =>
              split
              · next hverb =>
                  have hmethod := Method.ofDefinition_documented (d := d) r'.securitySchemes
                    k.shown v
                  refine .bind (hmethod.mono ?_) fun _ _ => .pure _
                  rintro ⟨own, hown, h⟩
                  exact .method (List.mem_filter.2 ⟨he, by simp [hslash, hverb]⟩) hown h
              · exact .pure r'
      · split
        · next hempty =>
            refine Traced.DocumentedUnless.mono (M := Misshapen d.mediaType []) ?_ fun h =>
              ⟨[], by simp [Value.optionalEntries, hempty], h⟩
            exact .bind (head_documented inherited uri relativeUri []) fun r _ =>
              finished_documented r
        · exact .fault rfl

theorem ofDefinition_documented (uri definition : Value) :
    (ofDefinition d uri definition).DocumentedUnless
      (∃ own, definition.optionalEntries = .ok own ∧ Misshapen d.mediaType own) := by
  unfold ofDefinition
  split
  · split
    · exact build_documented .none _ _ definition
    · exact .fault rfl
  · exact .fault rfl

end Resource

end Raml
