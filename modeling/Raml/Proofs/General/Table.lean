import Mathlib.Data.List.Induction
import Raml.Table

/-! # Tables over keys with an equality of their own

Keys of a document are compared by value, and that equality is neither identity
nor reflexive. A table only needs it to be symmetric and transitive from the
keys that it holds. Under that condition writing has the expected view, and
laying one table over another keeps the places of the lower one.
-/

namespace Raml

def Table.All {κ α : Type} (P : α → Prop) (t : Table κ α) : Prop := ∀ e ∈ t, P e.2

namespace Table

variable {κ α : Type} [BEq κ]

/-- Equality from this key on is symmetric and transitive. -/
structure Regular (k : κ) : Prop where
  symm : ∀ {a : κ}, (k == a) = true → (a == k) = true
  trans : ∀ {a b : κ}, (k == a) = true → (a == b) = true → (k == b) = true

/-- Of three keys, two equalities force the third. -/
structure Coherent (a b c : κ) : Prop where
  left : (a == b) = true → (b == c) = true → (a == c) = true
  right : (a == b) = true → (a == c) = true → (b == c) = true
  outer : (b == c) = true → (a == c) = true → (a == b) = true

theorem Regular.coherent {a b : κ} (ha : Regular a) (hb : Regular b) (c : κ) : Coherent a b c where
  left := ha.trans
  right hab hac := hb.trans (ha.symm hab) hac
  outer hbc hac := ha.trans hac (hb.symm hbc)

/-! ## Keys -/

omit [BEq κ] in
theorem mem_keys {t : Table κ α} {key : κ} : key ∈ keys t ↔ ∃ a, (key, a) ∈ t := by
  simp [keys]

theorem has_eq_any (t : Table κ α) (key : κ) : t.has key = (keys t).any (· == key) := by
  induction t with
  | nil => rfl
  | cons e rest ih =>
      obtain ⟨k, b⟩ := e
      by_cases h : (k == key) = true
      · simp [has, get?, keys, h]
      · simp only [has] at ih
        simp only [has, get?, h, keys, List.map_cons, List.any_cons] at ih ⊢
        simpa using ih

/-- A new key goes to the end; a key that is present stays where it is. -/
theorem keys_insert (t : Table κ α) (key : κ) (a : α) :
    keys (insert t key a) = if t.has key then keys t else keys t ++ [key] := by
  induction t with
  | nil => rfl
  | cons e rest ih =>
      obtain ⟨k, b⟩ := e
      by_cases h : (k == key) = true
      · simp [insert, keys, has, get?, h]
      · simp only [keys, has] at ih
        simp only [insert, keys, has, get?, h, Bool.false_eq_true, if_false, List.map_cons, ih]
        by_cases present : (get? rest key).isSome = true
        · simp only [present, if_true]
        · simp only [present, Bool.false_eq_true, if_false, List.cons_append]

theorem mem_keys_insert {t : Table κ α} {key k : κ} {a : α} (h : k ∈ keys (insert t key a)) :
    k ∈ keys t ∨ k = key := by
  rw [keys_insert] at h
  split at h
  · exact .inl h
  · simpa using h

theorem mem_keys_insert_of_mem {t : Table κ α} {k : κ} (h : k ∈ keys t) (key : κ) (a : α) :
    k ∈ keys (insert t key a) := by
  rw [keys_insert]
  split
  · exact h
  · exact List.mem_append_left _ h

/-- No two keys are equal. -/
def Distinct (t : Table κ α) : Prop :=
  (keys t).Pairwise fun a b => (a == b) = false

theorem Distinct.insert {t : Table κ α} (h : Distinct t) (key : κ) (a : α) :
    Distinct (insert t key a) := by
  unfold Distinct
  rw [keys_insert]
  split
  · exact h
  · next absent =>
      refine List.pairwise_append.2 ⟨h, List.pairwise_singleton _ _, ?_⟩
      intro k hk k' hk'
      rw [List.mem_singleton] at hk'
      subst hk'
      rw [has_eq_any, Bool.not_eq_true, List.any_eq_false] at absent
      simpa using absent k hk

theorem Distinct.tail {e : κ × α} {t : Table κ α} (h : Distinct (e :: t)) : Distinct t :=
  (List.pairwise_cons.1 h).2

theorem Distinct.head {e : κ × α} {t : Table κ α} (h : Distinct (e :: t)) {k : κ}
    (hk : k ∈ keys t) : (e.1 == k) = false :=
  (List.pairwise_cons.1 h).1 k hk

theorem distinct_iff_nodup [LawfulBEq κ] (t : Table κ α) : Distinct t ↔ (keys t).Nodup := by
  simp [Distinct, List.Nodup]

/-! ## Looking up -/

theorem get?_eq_none_iff (t : Table κ α) (key : κ) :
    t.get? key = none ↔ ∀ k ∈ keys t, (k == key) = false := by
  have h := has_eq_any t key
  rw [has] at h
  rw [← Option.not_isSome_iff_eq_none, h]
  simp

theorem mem_of_get? {t : Table κ α} {key : κ} {a : α} (h : t.get? key = some a) :
    ∃ k, (k == key) = true ∧ (k, a) ∈ t := by
  induction t with
  | nil => simp at h
  | cons e rest ih =>
      obtain ⟨k, b⟩ := e
      by_cases hk : (k == key) = true
      · simp only [get?, hk, if_true, Option.some.injEq] at h
        exact ⟨k, hk, by simp [h]⟩
      · simp only [get?, hk, Bool.false_eq_true, if_false] at h
        obtain ⟨k', hk', hm⟩ := ih h
        exact ⟨k', hk', List.mem_cons_of_mem _ hm⟩

theorem get?_of_mem [LawfulBEq κ] {t : Table κ α} (ht : Distinct t) {key : κ} {a : α}
    (h : (key, a) ∈ t) : t.get? key = some a := by
  induction t with
  | nil => simp at h
  | cons e rest ih =>
      rcases List.mem_cons.1 h with rfl | hm
      · simp [get?]
      · have hne := ht.head (mem_keys.2 ⟨a, hm⟩)
        obtain ⟨k, b⟩ := e
        simp only [get?, hne, Bool.false_eq_true, if_false]
        exact ih ht.tail hm

/-- Two tables with the same keys in the same order and the same values under them are equal. -/
theorem eq_of_get? [LawfulBEq κ] {t u : Table κ α} (hkeys : keys t = keys u)
    (hdistinct : (keys t).Nodup) (h : ∀ key, t.get? key = u.get? key) : t = u := by
  induction t generalizing u with
  | nil => simpa [keys] using hkeys.symm
  | cons e rest ih =>
      cases u with
      | nil => simp [keys] at hkeys
      | cons e' rest' =>
          obtain ⟨k, a⟩ := e
          obtain ⟨k', a'⟩ := e'
          simp only [keys, List.map_cons, List.cons.injEq] at hkeys hdistinct
          obtain ⟨rfl, hkeys⟩ := hkeys
          obtain ⟨hk, hdistinct⟩ := List.nodup_cons.1 hdistinct
          have hhead : a = a' := by simpa [get?] using h k
          subst hhead
          have htail : ∀ key, get? rest key = get? rest' key := by
            intro key
            by_cases hkey : k = key
            · subst hkey
              have hnone : ∀ {t : Table κ α}, k ∉ keys t → t.get? k = none := fun {t} hk => by
                rw [← Option.not_isSome_iff_eq_none, get?_isSome_iff]
                exact hk
              rw [hnone hk, hnone (by rw [keys, ← hkeys]; exact hk)]
            · simpa [get?, hkey] using h key
          rw [ih hkeys hdistinct htail]

/-! ## Writing -/

theorem get?_insert_of_coherent {t : Table κ α} {key key' : κ} (a : α)
    (h : ∀ k ∈ keys t, Coherent k key key') :
    get? (insert t key a) key' = if key == key' then some a else get? t key' := by
  induction t with
  | nil => rfl
  | cons e rest ih =>
      obtain ⟨k, b⟩ := e
      have hc : Coherent k key key' := h k (by simp [keys])
      have hrest := ih fun k' hk' => h k' (by simp [keys] at hk' ⊢; exact .inr hk')
      by_cases hk : (k == key) = true
      · by_cases hk' : (k == key') = true
        · simp [insert, get?, hk, hk', hc.right hk hk']
        · have hne : ¬ (key == key') = true := fun e => hk' (hc.left hk e)
          simp [insert, get?, hk, hk', hne]
      · by_cases hk' : (k == key') = true
        · have hne : ¬ (key == key') = true := fun e => hk (hc.outer e hk')
          simp [insert, get?, hk, hk', hne]
        · simp [insert, get?, hk, hk', hrest]

/-! ## Entries -/

theorem mem_insert_cases {t : Table κ α} {key : κ} {a : α} {e : κ × α} (h : e ∈ insert t key a) :
    e ∈ t ∨ e.2 = a ∧ (e.1 = key ∨ (e.1 == key) = true) := by
  induction t with
  | nil =>
      obtain rfl := List.mem_singleton.1 h
      exact .inr ⟨rfl, .inl rfl⟩
  | cons e' rest ih =>
      simp only [insert] at h
      split at h
      · next hkey =>
          rcases List.mem_cons.1 h with rfl | h
          · exact .inr ⟨rfl, .inr hkey⟩
          · exact .inl (List.mem_cons_of_mem _ h)
      · rcases List.mem_cons.1 h with rfl | h
        · exact .inl List.mem_cons_self
        · exact (ih h).imp_left (List.mem_cons_of_mem _)

theorem mem_insert {t : Table κ α} {key k : κ} {a b : α}
    (h : (k, a) ∈ insert t key b) : (k, a) ∈ t ∨ a = b :=
  (mem_insert_cases h).imp_right And.left

theorem mem_of_mem_insert [LawfulBEq κ] {t : Table κ α} {key : κ} {a : α} {e : κ × α}
    (h : e ∈ insert t key a) : e ∈ t ∨ e = (key, a) := by
  induction t with
  | nil => exact .inr (List.mem_singleton.1 h)
  | cons e' rest ih =>
      obtain ⟨k, b⟩ := e'
      rw [insert] at h
      split at h
      · next hkey =>
          obtain rfl := eq_of_beq hkey
          rcases List.mem_cons.1 h with rfl | h
          · exact .inr rfl
          · exact .inl (List.mem_cons_of_mem _ h)
      · rcases List.mem_cons.1 h with rfl | h
        · exact .inl List.mem_cons_self
        · exact (ih h).imp_left (List.mem_cons_of_mem _)

section All

variable {P : α → Prop}

theorem All.insert {base : Table κ α} (h : All P base) {key : κ} {a : α} (ha : P a) :
    All P (insert base key a) := by
  rintro ⟨k, b⟩ hmem
  rcases mem_insert hmem with hmem | rfl
  · exact h _ hmem
  · exact ha

theorem All.of_get? {t : Table κ α} (h : All P t) {key : κ} {a : α} (hget : t.get? key = some a) :
    P a := by
  obtain ⟨k, -, hmem⟩ := mem_of_get? hget
  exact h _ hmem

end All

/-! ## Taking away -/

theorem get?_erase (t : Table κ α) (key key' : κ)
    (h : ∀ k ∈ keys t, (k == key) = true → (k == key') = false) :
    get? (erase t key) key' = get? t key' := by
  induction t with
  | nil => rfl
  | cons e rest ih =>
      obtain ⟨k, a⟩ := e
      have hrest := ih fun k' hk' => h k' (List.mem_cons_of_mem _ hk')
      simp only [erase] at hrest
      by_cases hk : (k == key) = true
      · have hne := h k (by simp [keys]) hk
        simp [erase, get?, hk, hne, hrest]
      · simp [erase, get?, hk, hrest]

theorem erase_of_absent {t : Table κ α} {key : κ}
    (h : ∀ k ∈ keys t, (k == key) = false) : erase t key = t := by
  rw [erase, List.filter_eq_self]
  intro e he
  simp [h e.1 (List.mem_map_of_mem he)]

end Table

end Raml
