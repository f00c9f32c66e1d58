import Raml.Declaration
import Raml.Proofs.Value.Mapping

/-! # Merged declarations

What is found in a subtype's declaration once it is laid over its supertype's:
under `type` always the supertype's, under `properties` both together, under any
other key the subtype's own facet, or else the supertype's.
-/

namespace Raml

namespace Declaration

/-- What the facet of a subtype is written as over its supertype's. -/
def mergedValue (parent : Mapping) (facet : Value × Value) : Value :=
  if facet.1 == .text "properties" then
    match facet.2, parent.field "properties" with
    | .map own, .map inherited => .map (Table.overlay inherited own)
    | own, _ => own
  else facet.2

theorem mergeFacet_type (parent merged : Mapping) (v : Value) :
    mergeFacet parent merged (.text "type", v) = merged := by
  simp [mergeFacet]

theorem mergeFacet_of_ne {key : Value} (h : key ≠ .text "type") (parent merged : Mapping)
    (v : Value) :
    mergeFacet parent merged (key, v) = merged.insert key (mergedValue parent (key, v)) := by
  have hne : (key == .text "type") = false := Bool.eq_false_iff.2 (by simpa using h)
  simp only [mergeFacet, mergedValue, hne, Bool.false_eq_true, if_false]
  by_cases hp : (key == .text "properties") = true
  · simp only [hp, if_true]
    split <;> simp [*]
  · simp [hp]

/-- Equal keys are merged alike. -/
theorem mergedValue_congr {k key : Value} (h : (k == key) = true) (parent : Mapping) (v : Value) :
    mergedValue parent (k, v) = mergedValue parent (key, v) := by
  have hiff : (k == .text "properties") = (key == .text "properties") := by
    rw [Bool.eq_iff_iff, Value.beq_text, Value.beq_text]
    constructor
    · rintro rfl
      exact (Value.text_beq _ _).1 h
    · rintro rfl
      exact (Value.beq_text _ _).1 h
  simp only [mergedValue, hiff]

theorem mergedValue_of_ne {key : Value} (h : key ≠ .text "properties") (parent : Mapping)
    (v : Value) : mergedValue parent (key, v) = v := by
  have hne : (key == .text "properties") = false := Bool.eq_false_iff.2 (by simpa using h)
  simp [mergedValue, hne]

/-! ## The view of a merged declaration -/

theorem field?_foldl_mergeFacet_type (parent acc child : Mapping) :
    Mapping.field? (child.foldl (mergeFacet parent) acc) "type" = acc.field? "type" := by
  induction child generalizing acc with
  | nil => rfl
  | cons facet rest ih =>
      obtain ⟨k, v⟩ := facet
      rw [List.foldl_cons, ih]
      by_cases hk : k = .text "type"
      · subst hk
        rw [mergeFacet_type]
      · rw [mergeFacet_of_ne hk, Mapping.field?_insert]
        simp [hk]

@[simp] theorem field?_merge_type (parent child : Mapping) :
    (merge parent child).field? "type" = parent.field? "type" :=
  field?_foldl_mergeFacet_type parent parent child

theorem get?_foldl_mergeFacet (parent acc : Mapping) {child : Mapping} {key : Value}
    (distinct : Table.Distinct child) (hkey : key ≠ .text "type")
    (h : ∀ a b, a ∈ Table.keys acc ∨ a ∈ Table.keys child → b ∈ Table.keys child →
      Table.Coherent a b key) :
    Table.get? (child.foldl (mergeFacet parent) acc) key =
      ((child.get? key).map fun v => mergedValue parent (key, v)).or (acc.get? key) := by
  induction child generalizing acc with
  | nil => simp
  | cons facet rest ih =>
      obtain ⟨k, v⟩ := facet
      have hmem : k ∈ Table.keys ((k, v) :: rest) := by simp [Table.keys]
      have hrest : ∀ b ∈ Table.keys rest, b ∈ Table.keys ((k, v) :: rest) := fun b hb =>
        List.mem_cons_of_mem _ hb
      rw [List.foldl_cons]
      -- the type is passed over; any other facet is inserted, and none after it has an equal key
      by_cases hk : k = .text "type"
      · have hne : (k == key) = false := by
          subst hk
          exact Bool.eq_false_iff.2 (by simpa using hkey)
        subst hk
        rw [mergeFacet_type, ih _ distinct.tail fun a b ha hb =>
          h a b (ha.imp_right (hrest a)) (hrest b hb)]
        simp [Table.get?, hne]
      · have hins : ∀ a b, a ∈ Table.keys (acc.insert k (mergedValue parent (k, v))) ∨
            a ∈ Table.keys rest → b ∈ Table.keys rest → Table.Coherent a b key := by
          intro a b ha hb
          refine h a b ?_ (hrest b hb)
          rcases ha with ha | ha
          · rcases Table.mem_keys_insert ha with ha | rfl
            · exact .inl ha
            · exact .inr hmem
          · exact .inr (hrest a ha)
        rw [mergeFacet_of_ne hk, ih _ distinct.tail hins,
          Table.get?_insert_of_coherent _ fun a ha => h a k (.inl ha) hmem]
        by_cases hkk : (k == key) = true
        · rw [Table.get?_tail_eq_none distinct (fun b hb => h k b (.inr hmem) (hrest b hb)) hkk]
          simp [Table.get?, hkk, mergedValue_congr hkk]
        · simp [Table.get?, hkk]

/-! ## Well-formed declarations -/

def properties (d : Mapping) : Mapping :=
  match d.field "properties" with
  | .map own => own
  | _ => []

/-- A declaration that a document holds: it and its properties are mappings of a document. -/
structure IsDict (d : Mapping) : Prop where
  facets : Mapping.IsDict d
  properties : Mapping.IsDict (properties d)

theorem get?_merge {parent child : Mapping} (hp : IsDict parent) (hc : IsDict child) {key : Value}
    (htype : key ≠ .text "type") (hproperties : key ≠ .text "properties") :
    Table.get? (merge parent child) key = (child.get? key).or (parent.get? key) := by
  have h := get?_foldl_mergeFacet parent parent hc.facets.distinct htype
    fun a b ha hb => (ha.elim (hp.facets.regular a) (hc.facets.regular a)).coherent
      (hc.facets.regular b hb) key
  simpa [merge, mergedValue_of_ne hproperties] using h

theorem field?_merge_properties (parent : Mapping) {child : Mapping} (hc : Table.Distinct child) :
    (merge parent child).field? "properties" =
      ((child.field? "properties").map fun v => mergedValue parent (.text "properties", v)).or
        (parent.field? "properties") := by
  have h := get?_foldl_mergeFacet parent parent hc
    (show (.text "properties" : Value) ≠ .text "type" by simp)
    fun a b _ _ => Value.coherent_text a b _
  simpa [merge, Mapping.field?] using h

theorem properties_eq_of_field? {d own : Mapping} (h : d.field? "properties" = some (.map own)) :
    properties d = own := by
  simp [properties, Mapping.field_of_field? h]

theorem properties_eq_nil_of_absent {d : Mapping} (h : d.field? "properties" = none) :
    properties d = [] := by
  simp [properties, Mapping.field, h]

theorem properties_merge {parent child own : Mapping} (hc : IsDict child)
    (h : child.field? "properties" = some (.map own)) :
    properties (merge parent child) = Table.overlay (properties parent) own := by
  have hown : Table.Distinct own := by
    have := hc.properties.distinct
    rwa [properties_eq_of_field? h] at this
  have hfield := field?_merge_properties parent hc.facets.distinct
  rw [h] at hfield
  cases hparent : parent.field "properties" with
  | map inherited =>
      have hmerged : (merge parent child).field? "properties" =
          some (.map (Table.overlay inherited own)) := by
        simpa [mergedValue, hparent] using hfield
      rw [properties_eq_of_field? hmerged]
      simp [properties, hparent]
  | _ =>
      have hmerged : (merge parent child).field? "properties" = some (.map own) := by
        simpa [mergedValue, hparent] using hfield
      rw [properties_eq_of_field? hmerged]
      simp [properties, hparent, Table.overlay_nil_left hown]

theorem properties_merge_of_absent {parent child : Mapping} (hc : IsDict child)
    (h : child.field? "properties" = none) :
    properties (merge parent child) = properties parent := by
  have hfield := field?_merge_properties parent hc.facets.distinct
  rw [h] at hfield
  simp only [Option.map_none, Option.none_or] at hfield
  simp [properties, Mapping.field, hfield]

theorem mem_keys_properties_merge {parent child : Mapping} (hc : IsDict child) {k : Value}
    (h : k ∈ Table.keys (properties (merge parent child))) :
    k ∈ Table.keys (properties parent) ∨ k ∈ Table.keys (properties child) := by
  cases hv : child.field? "properties" with
  | none =>
      rw [properties_merge_of_absent hc hv] at h
      exact .inl h
  | some v =>
      cases v with
      | map own =>
          rw [properties_merge hc hv] at h
          rw [properties_eq_of_field? hv]
          exact Table.mem_keys_overlay h
      | _ =>
          have hfield := field?_merge_properties parent hc.facets.distinct
          rw [hv] at hfield
          simp only [mergedValue, Option.map_some, Option.some_or] at hfield
          simp [properties, Mapping.field, hfield, Table.keys] at h

theorem foldl_mergeFacet_isDict {parent acc child : Mapping} (ha : Mapping.IsDict acc)
    (hc : ∀ k ∈ Table.keys child, Value.Keyable k) :
    Mapping.IsDict (child.foldl (mergeFacet parent) acc) := by
  induction child generalizing acc with
  | nil => exact ha
  | cons facet rest ih =>
      obtain ⟨k, v⟩ := facet
      have hrest : ∀ k' ∈ Table.keys rest, Value.Keyable k' := fun k' h =>
        hc k' (List.mem_cons_of_mem _ h)
      rw [List.foldl_cons]
      by_cases hk : k = .text "type"
      · subst hk
        rw [mergeFacet_type]
        exact ih ha hrest
      · rw [mergeFacet_of_ne hk]
        exact ih (ha.insert (hc k (by simp [Table.keys])) _) hrest

theorem IsDict.merge {parent child : Mapping} (hp : IsDict parent) (hc : IsDict child) :
    IsDict (merge parent child) where
  facets := foldl_mergeFacet_isDict hp.facets hc.facets.keyable
  properties := by
    cases hv : child.field? "properties" with
    | none =>
        rw [properties_merge_of_absent hc hv]
        exact hp.properties
    | some v =>
        cases v with
        | map own =>
            have hown := hc.properties
            rw [properties_eq_of_field? hv] at hown
            rw [properties_merge hc hv]
            exact hp.properties.overlay hown
        | _ =>
            have hfield := field?_merge_properties parent hc.facets.distinct
            rw [hv] at hfield
            simp only [mergedValue, Option.map_some, Option.some_or] at hfield
            simpa [Declaration.properties, Mapping.field, hfield] using Mapping.IsDict.nil

end Declaration

end Raml
