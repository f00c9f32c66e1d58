import Raml.Proofs.General.Overlay
import Raml.Proofs.Value.Keys

/-! # Mappings

A mapping that a document decodes to has keys that can be keys, no two of them
equal. Its fields are read by texts, which need neither: a text is equal to
itself alone, whatever else the mapping holds.
-/

namespace Raml

namespace Mapping

/-! ## Fields -/

theorem field?_insert (m : Mapping) (key v : Value) (s : String) :
    field? (m.insert key v) s = if key == .text s then some v else m.field? s :=
  Table.get?_insert_of_coherent v fun k _ => Value.coherent_text k key s

@[simp] theorem field?_setField (m : Mapping) (key : String) (v : Value) (s : String) :
    field? (m.setField key v) s = if key = s then some v else m.field? s := by
  unfold setField
  rw [field?_insert]
  simp

@[simp] theorem field?_eraseField (m : Mapping) {key s : String} (h : key ≠ s) :
    field? (m.eraseField key) s = m.field? s := by
  refine Table.get?_erase m _ _ fun k _ hk => ?_
  rw [Value.beq_text] at hk
  subst hk
  exact Bool.eq_false_iff.2 (by simpa using h)

theorem field_of_field? {m : Mapping} {s : String} {v : Value} (h : m.field? s = some v) :
    m.field s = v := by
  simp [field, h]

theorem field?_of_mem {m : Mapping} (distinct : Table.Distinct m) {s : String} {v : Value}
    (h : (.text s, v) ∈ m) : m.field? s = some v := by
  induction m with
  | nil => cases h
  | cons e rest ih =>
      rcases List.mem_cons.1 h with rfl | hm
      · simp [field?, Table.get?]
      · have hne := distinct.head (Table.mem_keys.2 ⟨v, hm⟩)
        obtain ⟨k, w⟩ := e
        have hrest := ih distinct.tail hm
        simpa [field?, Table.get?, hne] using hrest

theorem mem_of_field? {m : Mapping} {s : String} {v : Value} (h : m.field? s = some v) :
    (.text s, v) ∈ m := by
  obtain ⟨k, hk, hm⟩ := Table.mem_of_get? h
  rw [Value.beq_text] at hk
  exact hk ▸ hm

theorem mem_insert {m : Mapping} {key v w : Value} {s : String}
    (h : (.text s, v) ∈ Table.insert m key w) : (.text s, v) ∈ m ∨ key = .text s ∧ v = w := by
  rcases Table.mem_insert_cases h with h | ⟨hv, hkey | hkey⟩
  · exact .inl h
  · exact .inr ⟨hkey.symm, hv⟩
  · exact .inr ⟨(Value.text_beq s key).1 hkey, hv⟩

theorem mem_setField {m : Mapping} {key s : String} {v w : Value}
    (h : (.text s, v) ∈ m.setField key w) : (.text s, v) ∈ m ∨ s = key ∧ v = w :=
  (mem_insert h).imp_right fun ⟨hkey, hv⟩ => ⟨(Value.text.inj hkey).symm, hv⟩

/-! ## Mappings of a document -/

/-- What a document's mapping satisfies: its keys can be keys, and no two are equal. -/
structure IsDict (m : Mapping) : Prop where
  keyable : ∀ k ∈ Table.keys m, Value.Keyable k
  distinct : Table.Distinct m

theorem IsDict.nil : IsDict [] := ⟨by simp [Table.keys], by simp [Table.Distinct, Table.keys]⟩

theorem IsDict.of_texts {m : Mapping} (names : List String) (hkeys : Table.keys m = names.map .text)
    (h : names.Nodup) : IsDict m where
  keyable k hk := by
    rw [hkeys] at hk
    obtain ⟨s, -, rfl⟩ := List.mem_map.1 hk
    exact .plain rfl
  distinct := by
    rw [Table.Distinct, hkeys, List.pairwise_map]
    exact h.imp fun hne => Bool.eq_false_iff.2 (by simpa using hne)

theorem IsDict.regular {m : Mapping} (h : IsDict m) : ∀ k ∈ Table.keys m, Table.Regular k :=
  fun k hk => (h.keyable k hk).regular

theorem IsDict.insert {m : Mapping} (h : IsDict m) {key : Value} (hkey : key.Keyable) (v : Value) :
    IsDict (Table.insert m key v) where
  keyable k hk := by
    rcases Table.mem_keys_insert hk with hk | rfl
    · exact h.keyable k hk
    · exact hkey
  distinct := h.distinct.insert key v

theorem IsDict.setField {m : Mapping} (h : IsDict m) (key : String) (v : Value) :
    IsDict (m.setField key v) :=
  h.insert (.plain rfl) v

theorem IsDict.eraseField {m : Mapping} (h : IsDict m) (key : String) :
    IsDict (m.eraseField key) := by
  have hsub : (Table.keys (m.eraseField key)).Sublist (Table.keys m) :=
    List.Sublist.map _ List.filter_sublist
  exact ⟨fun k hk => h.keyable k (hsub.subset hk), h.distinct.sublist hsub⟩

theorem IsDict.overlay {base top : Mapping} (hb : IsDict base) (ht : IsDict top) :
    IsDict (Table.overlay base top) where
  keyable k hk := (Table.mem_keys_overlay hk).elim (hb.keyable k) (ht.keyable k)
  distinct := hb.distinct.overlay top

end Mapping

end Raml
