import Raml.Proofs.DataType.Members
import Raml.Proofs.Validation.KeywordFaults

/-! # Misfits in declarations

The declaration of a type is refused with a documented fault, unless a misfit
is in it: a facet with a value of another kind than every reader of the facet
takes, or a schema with a number too long to be read. Laying a declaration over
another brings no new misfits, so applying inheritance to a registry has no
undocumented fault unless one of its types has a misfit.
-/

namespace Raml

/-! ## Documented faults -/

namespace Fault

/-- Whether a fault is one that reading a document may end with: it is documented, and neither one
of a value nor one of a query. -/
def isOfParsing (f : Fault) : Bool :=
  f.isDocumented && f.family != .validation && !f.isNotFound

/-- Whether a fault says that something has not the shape that it is used with. -/
inductive OfShape : Fault → Prop
  | badFields (record : Record) (fields : List String) : OfShape (.badFields record fields)
  | notMapping : OfShape .notMapping
  | wrongKind : OfShape .wrongKind
  | badValue : OfShape .badValue
  | overflow : OfShape .overflow
  | undecodable : OfShape .undecodable

/-- Whether a fault is a documented one of parsing, unless there is a misfit. -/
def DocumentedUnless (M : Prop) (f : Fault) : Prop :=
  f.isOfParsing = true ∨ f.OfShape ∧ M

end Fault

/-- Whether a result fails with documented faults of parsing only, unless there is a misfit. -/
abbrev DocumentedUnless {α : Type} (M : Prop) (x : Except Fault α) : Prop :=
  FailsOnly (Fault.DocumentedUnless M) x

namespace DocumentedUnless

variable {α β : Type} {M N : Prop}

theorem mono {x : Except Fault α} (h : DocumentedUnless M x) (hMN : M → N) :
    DocumentedUnless N x :=
  FailsOnly.mono h fun _ hf => hf.imp_right fun hs => ⟨hs.1, hMN hs.2⟩

theorem fault {f : Fault} (h : f.isOfParsing = true) :
    DocumentedUnless M (.error f : Except Fault α) :=
  FailsOnly.error_iff.2 (.inl h)

theorem shape {f : Fault} (h : f.OfShape) (hM : M) :
    DocumentedUnless M (.error f : Except Fault α) :=
  FailsOnly.error_iff.2 (.inr ⟨h, hM⟩)

/-- What has faults of a wrong shape only, has one where it has no result. -/
theorem of_shape {x : Except Fault α} (h : FailsOnly Fault.OfShape x) :
    DocumentedUnless (∀ a, x ≠ .ok a) x :=
  fun f hf => .inr ⟨h f hf, fun _ ha => nomatch ha.symm.trans hf⟩

theorem isOfParsing {x : Except Fault α} {f : Fault} (h : DocumentedUnless False x)
    (hf : x = .error f) : f.isOfParsing = true :=
  (h f hf).resolve_right (·.2)

theorem bind {x : Except Fault α} {k : α → Except Fault β} (hx : DocumentedUnless M x)
    (hk : ∀ a, x = .ok a → DocumentedUnless M (k a)) : DocumentedUnless M (x >>= k) := by
  intro f hf
  rcases Except.bind_eq_error_iff.1 hf with h | ⟨a, ha, h⟩
  · exact hx f h
  · exact hk a ha f h

theorem mapM {g : α → Except Fault β} {xs : List α} (h : ∀ a ∈ xs, DocumentedUnless M (g a)) :
    DocumentedUnless M (xs.mapM g) := by
  intro f hf
  obtain ⟨a, ha, hf⟩ := exists_of_mapM_eq_error hf
  exact h a ha f hf

end DocumentedUnless

/-! ## Facets -/

/-- Whether a value fits a facet: it is of the kind that is read from the facet of this key. -/
def Facet.fits (key : String) (v : Value) : Bool :=
  match key with
  | "required" | "additionalProperties" | "additional_properties" | "uniqueItems"
  | "unique_items" | "repeat" => (Field.truth? v).isSome
  | "displayName" | "display_name" | "description" | "pattern" | "format"
  | "discriminator" => (Field.optional Field.text? v).isSome
  | "minLength" | "min_length" | "maxLength" | "max_length" | "minItems" | "min_items"
  | "maxItems" | "max_items" | "minProperties" | "min_properties" | "maxProperties"
  | "max_properties" => (Field.optional Field.int? v).isSome
  | "minimum" | "maximum" | "multipleOf" | "multiple_of" =>
      (Field.optional Field.number? v).isSome
  | "enum" => (Field.optional Field.items? v).isSome
  | "fileTypes" | "file_types" => (Field.optional Field.texts? v).isSome
  | "oneOf" => ((Field.items? v).bind fun items => items.mapM untyped?).isSome
  | "value_type" => (Field.optional untyped? v).isSome
  | _ => true

/-- Whether a mapping has a facet with a value that does not fit. -/
def Mapping.HasBadFacet (d : Mapping) : Prop :=
  ∃ key v, (.text key, v) ∈ d ∧ Facet.fits key v = false

namespace Checked

variable {α β : Type} {M : Prop}

/-- Whether fields cannot be read only for a reason. -/
def Blames (M : Prop) (x : Checked α) : Prop := ∀ keys, x = .bad keys → M

theorem Blames.ok (a : α) : (Checked.ok a).Blames M := fun _ h => nomatch h

theorem Blames.map {x : Checked α} (h : x.Blames M) (f : α → β) : (x.map f).Blames M := by
  cases x with
  | ok a => exact .ok (f a)
  | bad keys => exact fun _ _ => h keys rfl

theorem Blames.seq {f : Checked (α → β)} {x : Checked α} (hf : f.Blames M) (hx : x.Blames M) :
    (f <*> x).Blames M := by
  cases f with
  | bad keys => exact fun _ _ => hf keys rfl
  | ok f =>
      cases x with
      | ok a => exact .ok (f a)
      | bad keys => exact fun _ _ => hx keys rfl

theorem Blames.documented {x : Checked α} (h : x.Blames M) (record : Record) :
    DocumentedUnless M (x.toExcept record) := by
  cases x with
  | ok a => exact FailsOnly.ok a
  | bad keys => exact .shape (.badFields record _) (h keys rfl)

end Checked

namespace Field

variable {α : Type} {d : Mapping} {key other : String} {kind : Value → Option α}

theorem given_blames {M : Prop} {v : Value} (h : kind v = none → M) :
    (given key v kind).Blames M := by
  unfold given
  split
  · exact .ok _
  · next hkind => exact fun _ _ => h hkind

/-- A field with a default is at fault only if a value stands under one of its keys. -/
theorem read_blames {a : α} (hkey : Facet.fits key = fun v => (kind v).isSome)
    (hother : Facet.fits other = fun v => (kind v).isSome) :
    (read d key other (some a) kind).Blames d.HasBadFacet := by
  have hbad : ∀ {s : String} {v : Value}, Facet.fits s = (fun v => (kind v).isSome) →
      d.field? s = some v → kind v = none → d.HasBadFacet := fun {s v} hs hv hnone =>
    ⟨s, v, Mapping.mem_of_field? hv, by simp [hs, hnone]⟩
  unfold read
  split
  · next v hv => exact given_blames (hbad hkey hv)
  · split
    · next v hv => exact given_blames (hbad hother hv)
    · exact .ok a

theorem readOptional_blames (hkey : Facet.fits key = fun v => (optional kind v).isSome)
    (hother : Facet.fits other = fun v => (optional kind v).isSome) :
    (readOptional d key other kind).Blames d.HasBadFacet :=
  read_blames hkey hother

end Field

theorem Common.read_blames (name : String) (d : Mapping) :
    (Common.read name d).Blames d.HasBadFacet := by
  unfold Common.read
  refine .seq (.seq (.seq (.seq (.seq (.seq (.map ?_ _) ?_) ?_) ?_) ?_) ?_) ?_
  all_goals exact Field.read_blames rfl rfl

namespace DataType

theorem readScalar_blames (d : Mapping) (word : ScalarWord) :
    (readScalar d word).Blames d.HasBadFacet := by
  cases word with
  | any | boolean | nil => exact .ok _
  | string =>
      refine .map (.seq (.seq (.map ?_ _) ?_) ?_) _
      all_goals exact Field.read_blames rfl rfl
  | number | integer =>
      refine .map (.seq (.seq (.seq (.map ?_ _) ?_) ?_) ?_) _
      all_goals exact Field.read_blames rfl rfl
  | file =>
      refine .map (.seq (.seq (.map ?_ _) ?_) ?_) _
      all_goals exact Field.read_blames rfl rfl
  | temporal => exact .map (Field.read_blames rfl rfl) _

theorem readMembers_blames (d : Mapping) (built : List DataType) :
    (readMembers d built).Blames d.HasBadFacet := by
  unfold readMembers
  split
  · exact .ok _
  · next v hv =>
      split
      · exact .ok _
      · next hnone =>
          have hfits : Facet.fits "oneOf" v =
              ((Field.items? v).bind fun items => items.mapM untyped?).isSome := rfl
          exact fun _ _ => ⟨"oneOf", v, Mapping.mem_of_field? hv, by rw [hfits, hnone]; rfl⟩

/-- A type is assembled unless a facet does not fit, or an embedded schema is none. -/
theorem assemble_documented (bound : Bool) (o : Outline) (nested : List DataType) :
    DocumentedUnless (o.declaration.HasBadFacet ∨
        ∃ schema, o.shape = .embedded schema ∧ schema.map? = none)
      (assemble bound o nested) := by
  obtain ⟨name, d, shape⟩ := o
  have hcommon := Common.read_blames name d
  cases shape with
  | scalar word =>
      exact (((hcommon.map _).seq (readScalar_blames d word)).documented _).mono .inl
  | object properties =>
      refine ((hcommon.map _).seq ?_ |>.documented _).mono .inl
      refine .seq (.seq (.seq (.seq (.map ?_ _) ?_) ?_) ?_) ?_
      all_goals exact Field.read_blames rfl rfl
  | array items =>
      refine ((hcommon.map _).seq ?_ |>.documented _).mono .inl
      refine .seq (.seq (.map ?_ _) ?_) ?_
      all_goals exact Field.read_blames rfl rfl
  | union members =>
      exact (((hcommon.map _).seq (readMembers_blames d nested)).documented _).mono .inl
  | reference | json | xml => exact ((hcommon.map _).documented _).mono .inl
  | embedded schema =>
      have hempty : (Common.read name []).Blames (schema.map? = none) := by
        intro keys h
        obtain ⟨_, _, hm, -⟩ := Common.read_blames name [] keys h
        cases hm
      refine FailsOnly.map (DocumentedUnless.mono ?_ fun h => .inr ⟨schema, rfl, h⟩) _
      exact ((hempty.map _).seq (Field.given_blames id)).documented _

end DataType

/-! ## Misfits -/

namespace Declaration

/-- Whether a part of a text is a JSON text with a number of too many digits. -/
def HasLongNumber (t : String) : Prop :=
  ∃ part : String, part.toList <:+: t.toList ∧ '\x7b' ∈ part.toList ∧
    Json.read part = .error .tooManyDigits

theorem HasLongNumber.of_infix {part whole : String} (h : HasLongNumber part)
    (hin : part.toList <:+: whole.toList) : HasLongNumber whole := by
  obtain ⟨p, hp, hbrace, hread⟩ := h
  exact ⟨p, hp.trans hin, hbrace, hread⟩

theorem not_hasLongNumber {t : String} (h : '\x7b' ∉ t.toList) : ¬ HasLongNumber t :=
  fun ⟨_, hp, hbrace, _⟩ => h (hp.subset hbrace)

mutual

/-- Whether something in a declaration, or in one nested in it, cannot be read. -/
inductive Misfit : Value → Prop
  | text {t : String} (h : HasLongNumber t) : Misfit (.text t)
  | entry {d : Mapping} {key : String} {v : Value} (hm : (.text key, v) ∈ d)
      (hv : MisfitUnder key v) : Misfit (.map d)
  | embedded {schema : Value} (h : schema.map? = none) : Misfit (.embedded schema)

inductive MisfitUnder : String → Value → Prop
  | facet {key : String} {v : Value} (h : Facet.fits key v = false) : MisfitUnder key v
  | type {key t : String} (hkey : key = "type" ∨ key = "schema") (h : HasLongNumber t) :
      MisfitUnder key (.text t)
  | items {key : String} {v : Value} (hkey : key = "items") (h : Misfit v) : MisfitUnder key v
  | property {key : String} {properties : Mapping} {k v : Value} (hkey : key = "properties")
      (hm : (k, v) ∈ properties) (h : Misfit v) : MisfitUnder key (.map properties)

end

theorem MisfitUnder.of_type {v : Value} (h : MisfitUnder "type" v) :
    ∃ t, v = .text t ∧ HasLongNumber t := by
  cases h with
  | facet h => cases h
  | type _ h => exact ⟨_, rfl, h⟩
  | items hkey _ => exact absurd hkey (by decide)
  | property hkey _ _ => exact absurd hkey (by decide)

theorem MisfitUnder.of_properties {v : Value} (h : MisfitUnder "properties" v) :
    ∃ properties k w, v = .map properties ∧ (k, w) ∈ properties ∧ Misfit w := by
  cases h with
  | facet h => cases h
  | type hkey _ => exact absurd hkey (by decide)
  | items hkey _ => exact absurd hkey (by decide)
  | property _ hm h => exact ⟨_, _, _, rfl, hm, h⟩

theorem not_misfitUnder_required : ¬ MisfitUnder "required" (.bool false) := by
  intro h
  cases h with
  | facet h => cases h
  | items hkey _ => exact absurd hkey (by decide)

/-! ## Misfits of normal declarations -/

theorem mem_withType {d : Mapping} {s : String} {v : Value} (h : (.text s, v) ∈ withType d) :
    (.text s, v) ∈ d ∨ s = "type" ∧ (v = impliedType d ∨ (.text "schema", v) ∈ d) := by
  unfold withType at h
  split at h
  · dsimp only at h
    split at h
    · exact (Mapping.mem_setField h).imp_right fun ⟨hs, hv⟩ => ⟨hs, .inl hv⟩
    · next hschema =>
        rcases Mapping.mem_setField h with h | ⟨hs, rfl⟩
        · exact .inl (List.mem_of_mem_filter h)
        · refine .inr ⟨hs, .inr ?_⟩
          cases hf : d.field? "schema" with
          | none => simp [Mapping.field, hf, Value.isNull] at hschema
          | some schema =>
              rw [Mapping.field_of_field? hf]
              exact Mapping.mem_of_field? hf
  · exact .inl h

theorem Misfit.of_normal {definition : Value} {d : Mapping} {s : String} {v : Value}
    (hd : normalize definition = .ok d) (hm : (.text s, v) ∈ d) (hv : MisfitUnder s v) :
    Misfit definition := by
  cases definition with
  | text e =>
      obtain rfl := Except.ok.inj hd
      obtain ⟨rfl, rfl⟩ : s = "type" ∧ v = .text e := by simpa using hm
      obtain ⟨t, ht, hlong⟩ := hv.of_type
      exact ht ▸ .text hlong
  | null =>
      obtain rfl := Except.ok.inj hd
      obtain ⟨rfl, rfl⟩ : s = "type" ∧ v = .text "string" := by simpa using hm
      obtain ⟨t, ht, hlong⟩ := hv.of_type
      cases ht
      exact absurd hlong (not_hasLongNumber (by decide))
  | map m =>
      obtain rfl := Except.ok.inj hd
      rcases mem_withType hm with hm | ⟨rfl, hv' | hm⟩
      · exact .entry hm hv
      · obtain ⟨t, ht, hlong⟩ := hv.of_type
        rw [hv', impliedType] at ht
        obtain rfl := Value.text.inj ht
        refine absurd hlong (not_hasLongNumber ?_)
        split <;> decide
      · obtain ⟨t, rfl, hlong⟩ := hv.of_type
        exact .entry hm (.type (.inr rfl) hlong)
  | _ => simp [normalize] at hd

theorem Misfit.of_type {definition : Value} {d : Mapping} {expression : String}
    (hd : normalize definition = .ok d) (he : d.field? "type" = some (.text expression))
    (h : HasLongNumber expression) : Misfit definition :=
  .of_normal hd (Mapping.mem_of_field? he) (.type (.inl rfl) h)

/-! ## Misfits of merged declarations -/

theorem mem_foldl_mergeFacet {parent acc child : Mapping} {s : String} {v : Value}
    (h : (.text s, v) ∈ child.foldl (mergeFacet parent) acc) :
    (.text s, v) ∈ acc ∨ ∃ w, (.text s, w) ∈ child ∧ v = mergedValue parent (.text s, w) := by
  induction child generalizing acc with
  | nil => exact .inl h
  | cons facet rest ih =>
      obtain ⟨k, w⟩ := facet
      rw [List.foldl_cons] at h
      rcases ih h with h | ⟨w', hm, hv⟩
      · by_cases hk : k = .text "type"
        · subst hk
          rw [mergeFacet_type] at h
          exact .inl h
        · rw [mergeFacet_of_ne hk] at h
          rcases Mapping.mem_insert h with h | ⟨rfl, hv⟩
          · exact .inl h
          · exact .inr ⟨w, by simp, hv⟩
      · exact .inr ⟨w', List.mem_cons_of_mem _ hm, hv⟩

theorem mergedValue_properties (parent : Mapping) (v : Value) :
    (∃ own inherited, v = .map own ∧ parent.field? "properties" = some (.map inherited) ∧
        mergedValue parent (.text "properties", v) = .map (Table.overlay inherited own)) ∨
      mergedValue parent (.text "properties", v) = v := by
  unfold mergedValue
  split
  · dsimp only
    split
    · next own inherited hfield _ =>
        refine .inl ⟨own, inherited, rfl, ?_, rfl⟩
        cases hf : parent.field? "properties" with
        | none => simp [Mapping.field, hf] at hfield
        | some w => rw [← Mapping.field_of_field? hf, hfield]
    · exact .inr rfl
  · exact .inr rfl

theorem Misfit.of_merge {parent child : Mapping} (h : Misfit (.map (merge parent child))) :
    Misfit (.map parent) ∨ Misfit (.map child) := by
  cases h with
  | @entry _ s v hm hv =>
      rcases mem_foldl_mergeFacet hm with hm | ⟨w, hw, rfl⟩
      · exact .inl (.entry hm hv)
      · by_cases hs : s = "properties"
        · subst hs
          rcases mergedValue_properties parent w with ⟨own, inherited, rfl, hfield, heq⟩ | heq
          · obtain ⟨_, k, u, hproperties, hu, hmisfit⟩ := hv.of_properties
            obtain rfl := Value.map.inj (heq.symm.trans hproperties)
            rcases Table.mem_overlay hu with hu | ⟨k', hu⟩
            · exact .inl (.entry (Mapping.mem_of_field? hfield) (.property rfl hu hmisfit))
            · exact .inr (.entry hw (.property rfl hu hmisfit))
          · exact .inr (.entry hw (heq ▸ hv))
        · rw [mergedValue_of_ne (by simpa using hs)] at hv
          exact .inr (.entry hw hv)

end Declaration

namespace Outline

open Declaration (HasLongNumber Misfit)

/-! ## Misfits of outlines -/

theorem readSchema_documented (source : String) :
    DocumentedUnless (Json.read source = .error .tooManyDigits) (readSchema source) := by
  unfold readSchema
  split
  · exact FailsOnly.ok _
  · exact .fault rfl
  · exact .fault rfl
  · next h => exact .shape .badValue h

theorem readProperties_documented {M : Prop} (name : String) (d : Mapping) :
    DocumentedUnless M (readProperties name d) := by
  unfold readProperties
  dsimp only
  split
  · exact FailsOnly.ok _
  · split
    · exact FailsOnly.ok _
    · exact .fault rfl

theorem ofText_documented (name : String) (d : Mapping) (expression : String) :
    DocumentedUnless (HasLongNumber expression) (ofText name d expression) := by
  have hprefix := settleOptional_isPrefix name d expression
  unfold ofText
  generalize settleOptional name d expression = settled at hprefix ⊢
  obtain ⟨name', d', expression'⟩ := settled
  dsimp only at hprefix ⊢
  split
  · exact FailsOnly.ok _
  · split_ifs with hobject harray hxml hjson
    · exact .bind (readProperties_documented name' d') fun _ _ => FailsOnly.ok _
    · exact FailsOnly.ok _
    · exact FailsOnly.ok _
    · refine .bind ((readSchema_documented expression').mono fun hlong => ?_) fun _ _ =>
        FailsOnly.ok _
      have hbrace : '\x7b' ∈ (Text.trim expression').toList := by
        rw [Text.startsIn, decide_eq_true_eq] at hjson
        exact List.mem_of_mem_head? hjson
      exact ⟨expression', hprefix.isInfix, (Text.trim_infix expression').subset hbrace, hlong⟩
    · exact FailsOnly.ok _

theorem ofDefinition_documented (name : String) (definition : Value) :
    DocumentedUnless (Misfit definition) (ofDefinition name definition) := by
  unfold ofDefinition
  split
  · exact FailsOnly.ok _
  · refine .bind ?_ fun d hd => ?_
    · unfold Declaration.normalize
      split
      · exact FailsOnly.ok _
      · exact FailsOnly.ok _
      · exact FailsOnly.ok _
      · exact .fault rfl
    · obtain ⟨v, hv, -⟩ := Declaration.normalize_type hd
      rw [Mapping.field_of_field? hv]
      split
      · exact FailsOnly.ok _
      · exact (ofText_documented name d _).mono (.of_type hd hv)
      · exact .fault rfl

theorem mem_settleOptional {name expression s : String} {d : Mapping} {v : Value}
    (h : (.text s, v) ∈ (settleOptional name d expression).2.1) :
    (.text s, v) ∈ d ∨ s = "required" ∧ v = .bool false ∨
      ∃ t, s = "type" ∧ v = .text t ∧ t.toList <+: expression.toList := by
  have hdefault : (.text s, v) ∈ withDefault d "required" (.bool false) →
      (.text s, v) ∈ d ∨ s = "required" ∧ v = .bool false := by
    intro h
    unfold withDefault at h
    split at h
    · exact .inl h
    · exact Mapping.mem_setField h
  unfold settleOptional at h
  split at h
  · dsimp only at h
    split at h
    · exact (hdefault h).imp_right .inl
    · rcases Mapping.mem_setField h with h | ⟨hs, hv⟩
      · exact (hdefault h).imp_right .inl
      · exact .inr (.inr ⟨_, hs, hv,
          (Text.removeSuffix_isPrefix '?' _).trans (Text.trimEnd_isPrefix expression)⟩)
  · exact .inl h

theorem misfit_of_declaration {name : String} {definition : Value} {o : Outline}
    (ho : ofDefinition name definition = .ok o) (h : Misfit (.map o.declaration)) :
    Misfit definition := by
  cases h with
  | @entry _ s v hm hv =>
      rcases ofDefinition_cases ho with
        ⟨schema, rfl, rfl⟩ | ⟨d, hd, ⟨schema, -, rfl⟩ | ⟨expression, he, ho⟩⟩
      · obtain ⟨rfl, rfl⟩ : s = "type" ∧ v = schema := by simpa using hm
        obtain ⟨t, rfl, -⟩ := hv.of_type
        exact .embedded rfl
      · exact .of_normal hd hm hv
      · rw [(ofText_spec ho).1] at hm
        rcases mem_settleOptional hm with hm | ⟨rfl, rfl⟩ | ⟨t, rfl, rfl, hprefix⟩
        · exact .of_normal hd hm hv
        · exact absurd hv Declaration.not_misfitUnder_required
        · obtain ⟨t', ht, hlong⟩ := hv.of_type
          cases ht
          exact .of_type hd he (hlong.of_infix hprefix.isInfix)

theorem misfit_of_nested {name : String} {definition : Value} {o : Outline}
    (ho : ofDefinition name definition = .ok o) {p : String × Value} (hp : p ∈ o.shape.nested)
    (h : Misfit p.2) : Misfit definition := by
  rcases ofDefinition_cases ho with
    ⟨schema, -, rfl⟩ | ⟨d, hd, ⟨schema, -, rfl⟩ | ⟨expression, he, ho⟩⟩
  · simp [Shape.nested] at hp
  · simp [Shape.nested] at hp
  · rcases ofText_nested ho hp with (hitems | ⟨k, hm⟩) | ⟨part, hpart, hin, -, -⟩
    · exact .of_normal hd (Mapping.mem_of_field? hitems) (.items rfl h)
    · cases hf : d.field? "properties" with
      | none => simp [Declaration.properties, Mapping.field, hf] at hm
      | some own =>
          cases own with
          | map own =>
              rw [Declaration.properties_eq_of_field? hf] at hm
              exact .of_normal hd (Mapping.mem_of_field? hf) (.property rfl hm h)
          | _ => simp [Declaration.properties, Mapping.field, hf] at hm
    · rw [hpart] at h
      cases h with
      | text h => exact .of_type hd he (h.of_infix hin)

theorem ofText_ne_embedded {name expression : String} {d : Mapping} {o : Outline}
    (h : ofText name d expression = .ok o) (schema : Value) : o.shape ≠ .embedded schema := by
  unfold ofText at h
  dsimp only at h
  intro hshape
  split at h
  · obtain rfl := Except.ok.inj h
    cases hshape
  · split_ifs at h with hobject harray hxml hjson
    · obtain ⟨_, -, h⟩ := Except.bind_eq_ok_iff.1 h
      obtain rfl := Except.ok.inj h
      cases hshape
    · obtain rfl := Except.ok.inj h
      cases hshape
    · obtain rfl := Except.ok.inj h
      cases hshape
    · obtain ⟨_, -, h⟩ := Except.bind_eq_ok_iff.1 h
      obtain rfl := Except.ok.inj h
      cases hshape
    · obtain rfl := Except.ok.inj h
      dsimp only [ofExpression] at hshape
      split at hshape
      · cases hshape
      · split at hshape <;> cases hshape

theorem eq_embedded_of_shape {name : String} {definition schema : Value} {o : Outline}
    (ho : ofDefinition name definition = .ok o) (h : o.shape = .embedded schema) :
    definition = .embedded schema := by
  rcases ofDefinition_cases ho with
    ⟨schema', rfl, rfl⟩ | ⟨d, -, ⟨schema', -, rfl⟩ | ⟨expression, -, ho⟩⟩
  · cases h
    rfl
  · cases h
  · exact absurd h (ofText_ne_embedded ho schema)

end Outline

namespace DataType

open Declaration (Misfit)

/-! ## Misfits of types -/

/-- A declaration without misfits is refused with documented faults only. -/
theorem build_documented (bound : Bool) (name : String) (definition : Value) :
    DocumentedUnless (Misfit definition) (build bound name definition) := by
  generalize hw : definition.weight = w
  induction w using Nat.strongRecOn generalizing name definition with
  | ind w ih =>
      rw [build_eq]
      refine (Outline.ofDefinition_documented name definition).bind fun o ho => ?_
      refine .bind (.mapM fun p hp => ?_) fun nested _ => ?_
      · have hlt := Outline.weight_lt_of_nested ho hp
        exact (ih _ (hw ▸ hlt) p.1 p.2 rfl).mono (Outline.misfit_of_nested ho hp)
      · refine (assemble_documented bound o nested).mono ?_
        rintro (⟨key, v, hm, hv⟩ | ⟨schema, hshape, hno⟩)
        · exact Outline.misfit_of_declaration ho (.entry hm (.facet hv))
        · exact Outline.eq_embedded_of_shape ho hshape ▸ .embedded hno

theorem misfit_of_build {bound : Bool} {name : String} {definition : Value} {t : DataType}
    (h : build bound name definition = .ok t) (ht : Misfit (.map t.declaration)) :
    Misfit definition := by
  obtain ⟨o, nested, ho, -, ha⟩ := build_eq_ok h
  exact Outline.misfit_of_declaration ho (ha.declaration ▸ ht)

/-- Each name on the way of a reference is new and registered, so there is always depth left. -/
theorem followWithin_documented {M : Prop} {r : Registry} {fuel : Nat} {seen : List String}
    (hdistinct : seen.Nodup) (hseen : ∀ x ∈ seen, r.has x = true)
    (hfuel : r.length + 1 ≤ fuel + seen.length) (t : DataType) :
    DocumentedUnless M (followWithin r fuel seen t) := by
  induction fuel generalizing seen t with
  | zero =>
      have hle := Registry.length_le_of_registered hdistinct hseen
      omega
  | succ fuel ih =>
      cases t with
      | reference c target bound =>
          simp only [followWithin]
          split_ifs with hbound hmem
          · exact .fault rfl
          · exact .fault rfl
          · cases hget : r.get? target with
            | none => exact .fault rfl
            | some u =>
                rw [List.contains_iff_mem] at hmem
                refine ih ?_ ?_ ?_ u
                · simpa [List.nodup_append] using ⟨hdistinct, fun x hx he => hmem (he ▸ hx)⟩
                · intro x hx
                  rcases List.mem_append.1 hx with hx | hx
                  · exact hseen x hx
                  · rw [List.mem_singleton.1 hx, Table.has, hget]
                    rfl
                · simp only [List.length_append, List.length_singleton]
                  omega
      | _ => exact FailsOnly.ok _

theorem resolve_documented {M : Prop} (r : Registry) (t : DataType) :
    DocumentedUnless M (t.resolve r) :=
  followWithin_documented List.nodup_nil (by simp) (by simp) t

end DataType

namespace Registry

open Declaration (Misfit)

variable {r : Registry}

def HasMisfit (r : Registry) : Prop :=
  ∃ name t, r.get? name = some t ∧ Misfit (.map t.declaration)

theorem Settles.hasMisfit {name : String} {t : DataType} (h : r.Settles name t)
    (ht : Misfit (.map t.declaration)) : r.HasMisfit := by
  induction h with
  | own hget _ => exact ⟨_, _, hget, ht⟩
  | inherits hget _ _ hm ih =>
      obtain ⟨m, hbuild, rfl⟩ := Except.map_eq_ok_iff.1 hm
      rw [DataType.declaration_withParent] at ht
      rcases (DataType.misfit_of_build hbuild ht).of_merge with hparent | hown
      · exact ih hparent
      · exact ⟨_, _, hget, hown⟩

/-- Applying inheritance to types without misfits fails with documented faults only. -/
theorem applyInheritance_documented (hr : r.WellFormed) :
    DocumentedUnless r.HasMisfit (applyInheritance r).outcome := by
  intro f hf
  rcases applyInheritance_fault hr hf with ⟨name, -, hfault | hfault⟩ | ⟨_, _, _, -, -, rfl⟩
  · cases hfault <;> exact .inl rfl
  · obtain ⟨_, _, current, parent, hget, -, hs, hm⟩ := hfault
    refine DocumentedUnless.mono (DataType.build_documented true current.name _) (fun h => ?_) f
      (Except.map_eq_error_iff.1 hm)
    exact h.of_merge.elim hs.hasMisfit fun hown => ⟨_, _, hget, hown⟩
  · exact .inl rfl

end Registry

end Raml
