import Mathlib.Logic.Relation
import Raml.Proofs.DataType.Rebuilding
import Raml.Proofs.General.Table
import Raml.Registry.Inheritance

/-! # Lineages

Registered references form a graph in which every name has at most one arrow.
From any name on, the chain of references ends at an entry that is no
reference, comes back to a name, or leaves the registry; exactly one of the
three. The chain that is looked up is the lineage in the first case, and a
fault that tells which of the other two it is otherwise. The names on the way
are distinct, so the search never runs out of depth.
-/

namespace Raml

namespace Registry

open Relation

variable {r : Registry}

/-! ## References between entries -/

/-- Whether the entry under `name` is a reference to `target`. -/
def RefersTo (r : Registry) (name target : String) : Prop :=
  (r.get? name).bind DataType.target? = some target

theorem refersTo_iff {name target : String} :
    r.RefersTo name target ↔ ∃ t, r.get? name = some t ∧ t.target? = some target := by
  simp [RefersTo, Option.bind_eq_some_iff]

instance (r : Registry) (name target : String) : Decidable (r.RefersTo name target) := by
  unfold RefersTo
  infer_instance

theorem RefersTo.unique {name a b : String} (ha : r.RefersTo name a) (hb : r.RefersTo name b) :
    a = b :=
  Option.some.inj (ha.symm.trans hb)

theorem RefersTo.has {name target : String} (h : r.RefersTo name target) : r.has name = true := by
  obtain ⟨t, ht, -⟩ := refersTo_iff.1 h
  simp [Table.has, ht]

/-- Whether the chain of references from a name on comes back to one of its names. -/
def Revisits (r : Registry) (name : String) : Prop :=
  ∃ x, ReflTransGen r.RefersTo name x ∧ TransGen r.RefersTo x x

/-- Whether the chain of references from a name on comes to a name that is not registered. -/
def Strays (r : Registry) (name : String) : Prop :=
  ∃ x, ReflTransGen r.RefersTo name x ∧ r.has x = false

/-! ## Lineages -/

/-- The names from an entry up to its first ancestor that is no reference. -/
inductive IsLineage (r : Registry) : List String → Prop
  | root {name : String} {t : DataType} (h : r.get? name = some t) (ht : t.target? = none) :
      IsLineage r [name]
  | child {name target : String} {ancestors : List String} (h : r.RefersTo name target)
      (tail : IsLineage r (target :: ancestors)) : IsLineage r (name :: target :: ancestors)

theorem IsLineage.of_refersTo {name target : String} {xs : List String}
    (h : r.IsLineage (name :: xs)) (hr : r.RefersTo name target) :
    ∃ ancestors, xs = target :: ancestors ∧ r.IsLineage (target :: ancestors) := by
  cases h with
  | root h ht =>
      obtain ⟨t, hget, htarget⟩ := refersTo_iff.1 hr
      rw [h] at hget
      cases hget
      rw [ht] at htarget
      cases htarget
  | child h tail =>
      obtain rfl := h.unique hr
      exact ⟨_, rfl, tail⟩

theorem IsLineage.unique {name : String} {xs ys : List String} (hx : r.IsLineage (name :: xs))
    (hy : r.IsLineage (name :: ys)) : xs = ys := by
  induction ys generalizing name xs with
  | nil =>
      cases xs with
      | nil => rfl
      | cons target ancestors =>
          cases hx with
          | child h _ =>
              obtain ⟨_, hnil, -⟩ := hy.of_refersTo h
              cases hnil
  | cons target ancestors ih =>
      cases hy with
      | child h tail =>
          obtain ⟨ancestors', rfl, tail'⟩ := hx.of_refersTo h
          rw [ih tail' tail]

theorem IsLineage.has {names : List String} (h : r.IsLineage names) :
    ∀ name ∈ names, r.has name = true := by
  induction h with
  | root h _ => simp [Table.has, h]
  | child h _ ih =>
      intro name hname
      rcases List.mem_cons.1 hname with rfl | hname
      · exact h.has
      · exact ih name hname

theorem IsLineage.of_reflTransGen {name x : String} {xs : List String}
    (h : r.IsLineage (name :: xs)) (hx : ReflTransGen r.RefersTo name x) :
    ∃ ys, r.IsLineage (x :: ys) := by
  induction hx with
  | refl => exact ⟨xs, h⟩
  | tail _ hstep ih =>
      obtain ⟨ys, hys⟩ := ih
      obtain ⟨ancestors, -, tail⟩ := hys.of_refersTo hstep
      exact ⟨ancestors, tail⟩

theorem IsLineage.of_transGen {name x : String} {xs : List String}
    (h : r.IsLineage (name :: xs)) (hx : TransGen r.RefersTo name x) :
    ∃ ys, r.IsLineage (x :: ys) ∧ ys.length < xs.length := by
  induction hx with
  | single hstep =>
      obtain ⟨ancestors, rfl, tail⟩ := h.of_refersTo hstep
      exact ⟨ancestors, tail, by simp⟩
  | tail _ hstep ih =>
      obtain ⟨ys, hys, hlt⟩ := ih
      obtain ⟨ancestors, rfl, tail⟩ := hys.of_refersTo hstep
      exact ⟨ancestors, tail, by simp only [List.length_cons] at hlt; omega⟩

theorem IsLineage.transGen_of_mem {name x : String} {xs : List String}
    (h : r.IsLineage (name :: xs)) (hx : x ∈ xs) : TransGen r.RefersTo name x := by
  induction xs generalizing name with
  | nil => cases hx
  | cons target ancestors ih =>
      cases h with
      | child href tail =>
          rcases List.mem_cons.1 hx with rfl | hx
          · exact .single href
          · exact .head href (ih tail hx)

/-- An entry with a lineage is not behind itself: the lineage from there on would be shorter. -/
theorem IsLineage.not_transGen {name : String} {xs : List String}
    (h : r.IsLineage (name :: xs)) : ¬ TransGen r.RefersTo name name := by
  intro hcycle
  obtain ⟨ys, hys, hlt⟩ := h.of_transGen hcycle
  rw [h.unique hys] at hlt
  omega

theorem IsLineage.not_mem {name : String} {xs : List String} (h : r.IsLineage (name :: xs)) :
    name ∉ xs := fun hm => h.not_transGen (h.transGen_of_mem hm)

theorem IsLineage.not_revisits {name : String} {xs : List String}
    (h : r.IsLineage (name :: xs)) : ¬ r.Revisits name := by
  rintro ⟨x, hx, hcycle⟩
  obtain ⟨ys, hys⟩ := h.of_reflTransGen hx
  exact hys.not_transGen hcycle

theorem IsLineage.not_strays {name : String} {xs : List String}
    (h : r.IsLineage (name :: xs)) : ¬ r.Strays name := by
  rintro ⟨x, hx, habsent⟩
  obtain ⟨ys, hys⟩ := h.of_reflTransGen hx
  rw [hys.has x (by simp)] at habsent
  cases habsent

/-! ## Looking a lineage up -/

/-- What is told of a chain of references that does not end at an entry. -/
inductive LineageFault (r : Registry) (name : String) : Fault → Prop
  | cycle {x : String} {chain : List String} (hx : ReflTransGen r.RefersTo name x)
      (hcycle : TransGen r.RefersTo x x) : LineageFault r name (.inheritanceCycle chain)
  | stray {x target : String} (hx : ReflTransGen r.RefersTo name x) (h : r.RefersTo x target)
      (habsent : r.has target = false) : LineageFault r name (.unresolvedType target (some x))

theorem LineageFault.of_refersTo {name target : String} {f : Fault} (h : r.RefersTo name target)
    (ht : LineageFault r target f) : LineageFault r name f := by
  cases ht with
  | cycle hx hcycle => exact .cycle (.head h hx) hcycle
  | stray hx hr habsent => exact .stray (.head h hx) hr habsent

theorem lineageWithin_root {name : String} {t : DataType} (h : r.get? name = some t)
    (ht : t.target? = none) (fuel : Nat) (chain : List String) :
    r.lineageWithin fuel chain name = .ok [name] := by
  unfold lineageWithin
  rw [h]
  cases t with
  | reference c target bound => cases ht
  | _ => rfl

theorem lineageWithin_child {name target : String} (h : r.RefersTo name target) (fuel : Nat)
    (chain : List String) :
    r.lineageWithin fuel chain name =
      if chain.contains name then .error (.inheritanceCycle (chain ++ [name]))
      else if !r.has target then .error (.unresolvedType target (some name))
      else
        match fuel with
        | 0 => .error .endless
        | fuel + 1 => (r.lineageWithin fuel (chain ++ [name]) target).map (name :: ·) := by
  obtain ⟨t, hget, htarget⟩ := refersTo_iff.1 h
  cases t with
  | reference c target' bound =>
      cases htarget
      rw [lineageWithin, hget]
      cases fuel with
      | zero => rfl
      | succ fuel => cases hrest : r.lineageWithin fuel (chain ++ [name]) target <;> rfl
  | _ => cases htarget

/-- There are no more distinct names in a registry than entries. -/
theorem length_le_of_registered {names : List String} (hdistinct : names.Nodup)
    (h : ∀ name ∈ names, r.has name = true) : names.length ≤ r.length := by
  have hsub : names ⊆ Table.keys r := fun name hname =>
    (Table.get?_isSome_iff r name).1 (h name hname)
  have hle := hdistinct.length_le_of_subset hsub
  rwa [Table.keys, List.length_map] at hle

/-- The search finds the lineage or tells why there is none. The names passed are distinct and
registered, so there is always depth left for one more. -/
theorem lineageWithin_spec (fuel : Nat) (chain : List String) (name : String)
    (hname : r.has name = true) (hdistinct : chain.Nodup)
    (hchain : ∀ x ∈ chain, r.has x = true ∧ TransGen r.RefersTo x name)
    (hfuel : r.length + 1 ≤ fuel + chain.length) :
    (∃ ancestors, r.lineageWithin fuel chain name = .ok (name :: ancestors) ∧
        r.IsLineage (name :: ancestors)) ∨
      ∃ f, r.lineageWithin fuel chain name = .error f ∧ LineageFault r name f := by
  induction fuel generalizing chain name with
  | zero =>
      -- the chain would hold more distinct names than there are entries
      have hle := length_le_of_registered hdistinct fun x hx => (hchain x hx).1
      omega
  | succ fuel ih =>
      obtain ⟨t, hget⟩ := Option.isSome_iff_exists.1 hname
      cases ht : t.target? with
      | none => exact .inl ⟨[], lineageWithin_root hget ht _ _, .root hget ht⟩
      | some target =>
          have hr : r.RefersTo name target := refersTo_iff.2 ⟨t, hget, ht⟩
          rw [lineageWithin_child hr]
          by_cases hmem : name ∈ chain
          · refine .inr ⟨_, by rw [if_pos (by simpa using hmem)], ?_⟩
            exact .cycle .refl (hchain name hmem).2
          · rw [if_neg (by simpa using hmem)]
            cases htarget : r.has target with
            | false => exact .inr ⟨_, rfl, .stray .refl hr htarget⟩
            | true =>
                have hdistinct' : (chain ++ [name]).Nodup := by
                  rw [List.nodup_append]
                  refine ⟨hdistinct, by simp, fun a ha b hb => ?_⟩
                  rw [List.mem_singleton.1 hb]
                  exact fun heq => hmem (heq ▸ ha)
                have hchain' : ∀ x ∈ chain ++ [name],
                    r.has x = true ∧ TransGen r.RefersTo x target := by
                  intro x hx
                  rcases List.mem_append.1 hx with hx | hx
                  · exact ⟨(hchain x hx).1, (hchain x hx).2.tail hr⟩
                  · rw [List.mem_singleton.1 hx]
                    exact ⟨hname, .single hr⟩
                have hrest := ih (chain ++ [name]) target htarget hdistinct' hchain'
                  (by simp only [List.length_append, List.length_singleton]; omega)
                rcases hrest with ⟨ancestors, hok, hl⟩ | ⟨f, hf, hfault⟩
                · exact .inl ⟨target :: ancestors, by simp [hok, Except.map], .child hr hl⟩
                · exact .inr ⟨f, by simp [hf, Except.map], hfault.of_refersTo hr⟩

/-- The lineage of a registered name is looked up, or the fault tells why it has none. -/
theorem lineage_spec {name : String} (hname : r.has name = true) :
    (∃ ancestors, r.lineage name = .ok (name :: ancestors) ∧ r.IsLineage (name :: ancestors)) ∨
      ∃ f, r.lineage name = .error f ∧ LineageFault r name f :=
  lineageWithin_spec (r.length + 1) [] name hname .nil (by simp) (by simp)

/-- Every chain of references ends at an entry, comes back or leaves the registry. -/
theorem exists_lineage {name : String} (hname : r.has name = true) (hcycle : ¬ r.Revisits name)
    (hstray : ¬ r.Strays name) : ∃ ancestors, r.IsLineage (name :: ancestors) := by
  rcases lineage_spec hname with ⟨ancestors, -, h⟩ | ⟨f, -, h⟩
  · exact ⟨ancestors, h⟩
  · cases h with
    | cycle hx hc => exact absurd ⟨_, hx, hc⟩ hcycle
    | stray hx hr habsent => exact absurd ⟨_, hx.tail hr, habsent⟩ hstray

end Registry

end Raml
