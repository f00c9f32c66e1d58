import Raml.Proofs.Registry.Lineage
import Raml.Registry.Lookup

/-! # References held by types

A type nests others at any depth, and a reference is followed through the
registry one name at a time. The check of a registry finds a nested reference
without a target if there is one, and a reference resolves to a type exactly if
there are distinct names that lead from it there.
-/

namespace Raml

open Relation

namespace DataType

/-! ## Nested types -/

/-- Whether `u` is embedded directly in `t`. -/
def Nests (t u : DataType) : Prop := u ∈ t.nested

theorem ofProperties_eq (properties : List (String × DataType)) :
    ofProperties properties = (properties.map (·.2)).flatMap fun u => u :: u.descendants := by
  induction properties with
  | nil => rfl
  | cons p rest ih =>
      obtain ⟨name, t⟩ := p
      simp [ofProperties, ofProperty, ih]

theorem ofMembers_eq (members : List DataType) :
    ofMembers members = members.flatMap fun u => u :: u.descendants := by
  induction members with
  | nil => rfl
  | cons t rest ih => simp [ofMembers, ih]

theorem descendants_eq (t : DataType) :
    t.descendants = t.nested.flatMap fun u => u :: u.descendants := by
  cases t with
  | object c f properties => simp [descendants, nested, ofProperties_eq]
  | array c f items => cases items <;> simp [descendants, nested, ofItems]
  | union c members => simp [descendants, nested, ofMembers_eq]
  | _ => rfl

theorem mem_descendants_step {t u : DataType} :
    u ∈ t.descendants ↔ ∃ a, t.Nests a ∧ (u = a ∨ u ∈ a.descendants) := by
  rw [descendants_eq]
  simp [Nests]

theorem sizeOf_lt_of_nests {t u : DataType} (h : t.Nests u) : sizeOf u < sizeOf t := by
  cases t with
  | object c f properties =>
      obtain ⟨p, hp, rfl⟩ := List.mem_map.1 h
      have hlt := List.sizeOf_lt_of_mem hp
      obtain ⟨name, u⟩ := p
      simp only [object.sizeOf_spec, Prod.mk.sizeOf_spec] at hlt ⊢
      omega
  | array c f items =>
      obtain rfl : items = some u := by simpa [Nests, nested] using h
      simp only [array.sizeOf_spec, Option.some.sizeOf_spec]
      omega
  | union c members =>
      have hlt : sizeOf u < sizeOf members := List.sizeOf_lt_of_mem h
      simp only [union.sizeOf_spec]
      omega
  | _ => simp [Nests, nested] at h

theorem mem_descendants_iff {t u : DataType} : u ∈ t.descendants ↔ TransGen Nests t u := by
  constructor
  · intro h
    generalize hn : sizeOf t = n
    induction n using Nat.strongRecOn generalizing t with
    | ind n ih =>
        obtain ⟨a, ha, hu⟩ := mem_descendants_step.1 h
        rcases hu with rfl | hu
        · exact .single ha
        · exact .head ha (ih _ (hn ▸ sizeOf_lt_of_nests ha) hu rfl)
  · intro h
    induction h using TransGen.head_induction_on with
    | single h => exact mem_descendants_step.2 ⟨u, h, .inl rfl⟩
    | head h _ ih => exact mem_descendants_step.2 ⟨_, h, .inr ih⟩

end DataType

namespace Registry

variable {r : Registry}

/-- Whether a reference nested in a type names a target that is not registered. -/
def Dangles (r : Registry) (t : DataType) (target : String) : Prop :=
  ∃ u, TransGen DataType.Nests t u ∧ u.target? = some target ∧ r.has target = false

theorem mem_dangling_iff {t : DataType} {target : String} :
    target ∈ r.dangling t ↔ r.Dangles t target := by
  simp only [dangling, List.mem_filterMap, DataType.mem_descendants_iff, Dangles]
  constructor
  · rintro ⟨u, hu, h⟩
    cases ht : u.target? with
    | none => simp [ht] at h
    | some target' =>
        simp only [ht] at h
        split at h
        · cases h
        · next habsent =>
            obtain rfl := Option.some.inj h
            exact ⟨u, hu, ht, by simpa using habsent⟩
  · rintro ⟨u, hu, ht, habsent⟩
    exact ⟨u, hu, by simp [ht, habsent]⟩

/-- A registry passes the check exactly if no reference nested in an entry dangles. -/
theorem checkReferences_eq_ok_iff :
    r.checkReferences = .ok () ↔ ∀ e ∈ r, ∀ target, ¬ r.Dangles e.2 target := by
  unfold checkReferences
  split
  · next name target h =>
      obtain ⟨e, he, hhead⟩ := List.exists_of_findSome?_eq_some h
      obtain ⟨target', hhead, hp⟩ := Option.map_eq_some_iff.1 hhead
      have hmem : target' ∈ r.dangling e.2 := List.mem_of_head? hhead
      simp only [reduceCtorEq, false_iff]
      exact fun hall => hall e he target' (mem_dangling_iff.1 hmem)
  · next h =>
      simp only [true_iff]
      intro e he target hd
      rw [List.findSome?_eq_none_iff] at h
      have hnil : r.dangling e.2 = [] := by simpa using h e he
      have hmem := mem_dangling_iff.2 hd
      rw [hnil] at hmem
      cases hmem

theorem checkReferences_fault {f : Fault} (h : r.checkReferences = .error f) :
    ∃ e ∈ r, ∃ target, r.Dangles e.2 target ∧ f = .unresolvedType target (some e.1) := by
  unfold checkReferences at h
  split at h
  · next name target hfind =>
      obtain ⟨e, he, hhead⟩ := List.exists_of_findSome?_eq_some hfind
      obtain ⟨target', hhead, hp⟩ := Option.map_eq_some_iff.1 hhead
      cases hp
      exact ⟨e, he, target, mem_dangling_iff.1 (List.mem_of_head? hhead),
        (Except.error.inj h).symm⟩
  · cases h

/-! ## Following references -/

/-- Whether looking up the names, one after the other, leads from a type to one that is no
reference. -/
inductive Follows (r : Registry) : DataType → List String → DataType → Prop
  | here {t : DataType} (h : t.target? = none) : Follows r t [] t
  | step {c : Common} {target : String} {t u : DataType} {names : List String}
      (h : r.get? target = some t) (rest : Follows r t names u) :
      Follows r (.reference c target true) (target :: names) u

theorem Follows.has {t u : DataType} {names : List String} (h : r.Follows t names u) :
    ∀ name ∈ names, r.has name = true := by
  induction h with
  | here _ => simp
  | step h _ ih =>
      intro name hname
      rcases List.mem_cons.1 hname with rfl | hname
      · simp [Table.has, h]
      · exact ih name hname

theorem followWithin_sound {fuel : Nat} {seen : List String} {t u : DataType}
    (h : DataType.followWithin r fuel seen t = .ok u) :
    ∃ names, r.Follows t names u ∧ names.Nodup ∧ ∀ name ∈ names, name ∉ seen := by
  -- what was seen grows with each step, so the names that follow are none of those before them
  induction fuel generalizing seen t with
  | zero =>
      cases t with
      | reference c target bound =>
          cases bound with
          | false => simp [DataType.followWithin] at h
          | true =>
              simp only [DataType.followWithin, Bool.not_true, Bool.false_eq_true, if_false] at h
              split at h
              · cases h
              · cases hget : r.get? target <;> simp [hget] at h
      | _ =>
          obtain rfl := Except.ok.inj h
          exact ⟨[], .here rfl, .nil, by simp⟩
  | succ fuel ih =>
      cases t with
      | reference c target bound =>
          cases bound with
          | false => simp [DataType.followWithin] at h
          | true =>
              simp only [DataType.followWithin, Bool.not_true, Bool.false_eq_true, if_false] at h
              split at h
              · cases h
              · next hseen =>
                  cases hget : r.get? target with
                  | none => simp [hget] at h
                  | some t =>
                      simp only [hget] at h
                      obtain ⟨names, hf, hnodup, hnot⟩ := ih h
                      have hout : target ∉ names := fun hm => hnot target hm (by simp)
                      refine ⟨target :: names, .step hget hf, List.nodup_cons.2 ⟨hout, hnodup⟩, ?_⟩
                      intro name hname
                      rcases List.mem_cons.1 hname with rfl | hname
                      · simpa using hseen
                      · exact fun hm => hnot name hname (List.mem_append_left _ hm)
      | _ =>
          obtain rfl := Except.ok.inj h
          exact ⟨[], .here rfl, .nil, by simp⟩

theorem followWithin_complete {t u : DataType} {names : List String} (h : r.Follows t names u) :
    ∀ {fuel : Nat} {seen : List String}, (seen ++ names).Nodup → names.length ≤ fuel →
      DataType.followWithin r fuel seen t = .ok u := by
  induction h with
  | @here t ht =>
      intro fuel seen _ _
      cases t with
      | reference c target bound => cases ht
      | _ => cases fuel <;> rfl
  | @step c target t u names hget _ ih =>
      intro fuel seen hnodup hlength
      cases fuel with
      | zero => simp at hlength
      | succ fuel =>
          have hseen : target ∉ seen := fun hm =>
            (List.nodup_append.1 hnodup).2.2 target hm target (by simp) rfl
          have hrest : ((seen ++ [target]) ++ names).Nodup := by simpa using hnodup
          simp only [List.length_cons, Nat.add_le_add_iff_right] at hlength
          simp [DataType.followWithin, hseen, hget, ih hrest hlength]

theorem resolve_eq_ok_iff {t u : DataType} :
    t.resolve r = .ok u ↔ ∃ names, names.Nodup ∧ r.Follows t names u := by
  constructor
  · intro h
    obtain ⟨names, hf, hnodup, -⟩ := followWithin_sound h
    exact ⟨names, hnodup, hf⟩
  · rintro ⟨names, hnodup, hf⟩
    have hle := length_le_of_registered hnodup hf.has
    exact followWithin_complete hf (by simpa using hnodup) (by omega)

end Registry

end Raml
