import Raml.Proofs.Value.Keys

/-! # Equality of values

Two values are equal if they hold equal values in the same way: lists and tuples
item by item, mappings and sets in any order. What holds no other values is
equal to what it is recognised by: numbers and booleans by their exact size,
moments by the time that they denote, and an object that is no number by its
identity. The comparison of values decides this.
-/

namespace Raml

namespace Value

inductive Equal : Value → Value → Prop
  | plain {a b : Value} {t : Token} (left : a.token? = some t) (right : b.token? = some t) :
      Equal a b
  | list {xs ys : List Value} (items : List.Forall₂ Equal xs ys) : Equal (.list xs) (.list ys)
  | tuple {xs ys : List Value} (items : List.Forall₂ Equal xs ys) : Equal (.tuple xs) (.tuple ys)
  | map {xs ys : List (Value × Value)} (size : xs.length = ys.length)
      (partner : Value × Value → Value × Value) (mem : ∀ e ∈ xs, partner e ∈ ys)
      (key : ∀ e ∈ xs, Equal e.1 (partner e).1) (value : ∀ e ∈ xs, Equal e.2 (partner e).2) :
      Equal (.map xs) (.map ys)
  | set {xs ys : List Value} (size : xs.length = ys.length) (partner : Value → Value)
      (mem : ∀ v ∈ xs, partner v ∈ ys) (member : ∀ v ∈ xs, Equal v (partner v)) :
      Equal (.set xs) (.set ys)
  | embedded {a b : Value} (schema : Equal a b) : Equal (.embedded a) (.embedded b)

theorem sameScalar_iff_exists (a b : Value) :
    sameScalar a b = true ↔ ∃ t, a.token? = some t ∧ b.token? = some t := by
  rw [sameScalar_iff]
  constructor
  · rintro ⟨heq, hne⟩
    obtain ⟨t, ht⟩ := Option.ne_none_iff_exists'.1 hne
    exact ⟨t, ht, heq ▸ ht⟩
  · rintro ⟨t, ha, hb⟩
    exact ⟨ha.trans hb.symm, by simp [ha]⟩

/-! ## Collections -/

theorem equal_list_iff (xs : List Value) (b : Value) :
    Equal (.list xs) b ↔ ∃ ys, b = .list ys ∧ List.Forall₂ Equal xs ys := by
  constructor
  · intro h
    cases h with
    | plain left => cases left
    | list items => exact ⟨_, rfl, items⟩
  · rintro ⟨ys, rfl, items⟩
    exact .list items

theorem equal_tuple_iff (xs : List Value) (b : Value) :
    Equal (.tuple xs) b ↔ ∃ ys, b = .tuple ys ∧ List.Forall₂ Equal xs ys := by
  constructor
  · intro h
    cases h with
    | plain left => cases left
    | tuple items => exact ⟨_, rfl, items⟩
  · rintro ⟨ys, rfl, items⟩
    exact .tuple items

theorem equal_map_iff (xs : List (Value × Value)) (b : Value) :
    Equal (.map xs) b ↔ ∃ ys, b = .map ys ∧ xs.length = ys.length ∧
      ∀ e ∈ xs, ∃ e' ∈ ys, Equal e.1 e'.1 ∧ Equal e.2 e'.2 := by
  constructor
  · intro h
    cases h with
    | plain left => cases left
    | map size partner mem key value =>
        exact ⟨_, rfl, size, fun e he => ⟨partner e, mem e he, key e he, value e he⟩⟩
  · rintro ⟨ys, rfl, size, h⟩
    choose! partner hpartner using h
    exact .map size partner (fun e he => (hpartner e he).1) (fun e he => (hpartner e he).2.1)
      fun e he => (hpartner e he).2.2

theorem equal_set_iff (xs : List Value) (b : Value) :
    Equal (.set xs) b ↔ ∃ ys, b = .set ys ∧ xs.length = ys.length ∧
      ∀ v ∈ xs, ∃ w ∈ ys, Equal v w := by
  constructor
  · intro h
    cases h with
    | plain left => cases left
    | set size partner mem member =>
        exact ⟨_, rfl, size, fun v hv => ⟨partner v, mem v hv, member v hv⟩⟩
  · rintro ⟨ys, rfl, size, h⟩
    choose! partner hpartner using h
    exact .set size partner (fun v hv => (hpartner v hv).1) fun v hv => (hpartner v hv).2

theorem equal_embedded_iff (a b : Value) :
    Equal (.embedded a) b ↔ ∃ c, b = .embedded c ∧ Equal a c := by
  constructor
  · intro h
    cases h with
    | plain left => cases left
    | embedded schema => exact ⟨_, rfl, schema⟩
  · rintro ⟨c, rfl, schema⟩
    exact .embedded schema

/-- What is no collection is equal to what is recognised by the same token. -/
theorem equal_iff_of_isPlain {a : Value} (h : a.isPlain = true) (b : Value) :
    Equal a b ↔ ∃ t, a.token? = some t ∧ b.token? = some t := by
  constructor
  · intro hequal
    cases hequal with
    | plain left right => exact ⟨_, left, right⟩
    | _ => cases h
  · rintro ⟨t, left, right⟩
    exact .plain left right

/-! ## The comparison -/

theorem same_list_iff (xs : List Value) (b : Value) :
    same (.list xs) b = true ↔ ∃ ys, b = .list ys ∧ sameItems xs ys = true := by
  cases b <;> simp [same, sameScalar, numeric?]

theorem same_map_iff (xs : List (Value × Value)) (b : Value) :
    same (.map xs) b = true ↔
      ∃ ys, b = .map ys ∧ xs.length = ys.length ∧ sameEntries xs ys = true := by
  cases b <;> simp [same, sameScalar, numeric?]

theorem same_set_iff (xs : List Value) (b : Value) :
    same (.set xs) b = true ↔
      ∃ ys, b = .set ys ∧ xs.length = ys.length ∧ sameMembers xs ys = true := by
  cases b <;> simp [same, sameScalar, numeric?]

mutual

theorem same_iff (a b : Value) : same a b = true ↔ Equal a b := by
  cases a with
  | list xs => simp only [same_list_iff, equal_list_iff, sameItems_iff]
  | tuple xs => simp only [same_tuple_iff, equal_tuple_iff, sameItems_iff]
  | map xs => simp only [same_map_iff, equal_map_iff, sameEntries_iff]
  | set xs => simp only [same_set_iff, equal_set_iff, sameMembers_iff]
  | embedded schema => simp only [same_embedded_iff, equal_embedded_iff, same_iff schema]
  | _ => rw [same_of_isPlain rfl, sameScalar_iff_exists, equal_iff_of_isPlain rfl]
termination_by structural a

theorem sameItems_iff (xs ys : List Value) :
    sameItems xs ys = true ↔ List.Forall₂ Equal xs ys := by
  cases xs with
  | nil =>
      cases ys with
      | nil => simp [sameItems]
      | cons y ys => exact ⟨fun h => by simp [sameItems] at h, fun h => by cases h⟩
  | cons x xs =>
      cases ys with
      | nil => exact ⟨fun h => by simp [sameItems] at h, fun h => by cases h⟩
      | cons y ys =>
          rw [sameItems, Bool.and_eq_true, same_iff x y, sameItems_iff xs ys, List.forall₂_cons]
termination_by structural xs

theorem sameEntries_iff (xs ys : List (Value × Value)) : sameEntries xs ys = true ↔
    ∀ e ∈ xs, ∃ e' ∈ ys, Equal e.1 e'.1 ∧ Equal e.2 e'.2 := by
  cases xs with
  | nil => simp [sameEntries]
  | cons e rest =>
      rw [sameEntries, Bool.and_eq_true, sameEntries_iff rest ys, List.any_eq_true,
        List.forall_mem_cons]
      simp only [sameEntry_iff e]
termination_by structural xs

theorem sameEntry_iff (e e' : Value × Value) :
    sameEntry e e' = true ↔ Equal e.1 e'.1 ∧ Equal e.2 e'.2 := by
  cases e with
  | mk k v => rw [sameEntry, Bool.and_eq_true, same_iff k, same_iff v]
termination_by structural e

theorem sameMembers_iff (xs ys : List Value) :
    sameMembers xs ys = true ↔ ∀ v ∈ xs, ∃ w ∈ ys, Equal v w := by
  cases xs with
  | nil => simp [sameMembers]
  | cons x rest =>
      rw [sameMembers, Bool.and_eq_true, sameMembers_iff rest ys, List.any_eq_true,
        List.forall_mem_cons]
      simp only [same_iff x]
termination_by structural xs

end

/-- One object that is no number is equal to itself, and two of them are not. -/
example : Equal (.float (.notNumber (some 0))) (.float (.notNumber (some 0))) ∧
    ¬ Equal (.float .nan) (.float .nan) := by
  rw [← same_iff, ← same_iff]
  decide

end Value

end Raml
