import Raml.Proofs.General.Edits
import Raml.Proofs.Registry.References

/-! # Settled entries

The type that an entry settles to depends on the declared registry alone: it is
the entry itself if that is no reference, else it is built from what its target
settles to. A registry refines another if each of its entries is as it was or
has settled. Refining changes neither what any entry settles to nor which names
refer to which, up to those that have settled; so an entry may be settled
before or after any other, and once settled it stays.
-/

namespace Raml

namespace Registry

open Relation

variable {d r s : Registry}

/-- What holds of a registry that built types were added to: no name twice, every entry built. -/
structure WellFormed (r : Registry) : Prop where
  distinct : (Table.keys r).Nodup
  built : ∀ {name : String} {t : DataType}, r.get? name = some t → t.IsBuilt

/-- The type that an entry stands for once all its ancestors are merged into it. -/
inductive Settles (r : Registry) : String → DataType → Prop
  | own {name : String} {t : DataType} (h : r.get? name = some t) (ht : t.target? = none) :
      Settles r name t
  | inherits {name target : String} {current parent t : DataType} (h : r.get? name = some current)
      (ht : current.target? = some target) (hp : Settles r target parent)
      (hm : DataType.inheriting target parent current = .ok t) : Settles r name t

theorem Settles.of_refersTo {name target : String} {t current : DataType} (h : r.Settles name t)
    (hget : r.get? name = some current) (ht : current.target? = some target) :
    ∃ parent, r.Settles target parent ∧ DataType.inheriting target parent current = .ok t := by
  cases h with
  | own hget' ht' =>
      rw [hget] at hget'
      cases hget'
      rw [ht] at ht'
      cases ht'
  | inherits hget' ht' hp hm =>
      rw [hget] at hget'
      cases hget'
      rw [ht] at ht'
      cases ht'
      exact ⟨_, hp, hm⟩

/-- An entry settles to one type at most. -/
theorem Settles.unique {name : String} {t u : DataType} (ht : r.Settles name t)
    (hu : r.Settles name u) : t = u := by
  induction ht generalizing u with
  | own h ht =>
      cases hu with
      | own h' _ => exact Option.some.inj (h.symm.trans h')
      | inherits h' ht' _ _ =>
          rw [h] at h'
          cases h'
          rw [ht] at ht'
          cases ht'
  | inherits h ht _ hm ih =>
      obtain ⟨parent, hp, hm'⟩ := hu.of_refersTo h ht
      rw [ih hp, hm'] at hm
      exact (Except.ok.inj hm).symm

/-- More entries change nothing about those that settle already. -/
theorem Settles.mono (h : ∀ {name : String} {t : DataType}, r.get? name = some t →
    s.get? name = some t) {name : String} {t : DataType} (ht : r.Settles name t) :
    s.Settles name t := by
  induction ht with
  | own hget ht => exact .own (h hget) ht
  | inherits hget ht _ hm ih => exact .inherits (h hget) ht ih hm

theorem Settles.has {name : String} {t : DataType} (h : r.Settles name t) :
    r.has name = true := by
  cases h with
  | own h _ => simp [Table.has, h]
  | inherits h _ _ _ => simp [Table.has, h]

theorem Settles.built (hr : r.WellFormed) {name : String} {t : DataType} (h : r.Settles name t) :
    t.IsBuilt ∧ t.kind ≠ .reference := by
  induction h with
  | own h ht => exact ⟨hr.built h, (DataType.kind_ne_reference_iff _).2 ht⟩
  | inherits _ _ _ hm ih =>
      refine ⟨DataType.inheriting_isBuilt hm, ?_⟩
      rw [DataType.inheriting_kind ih.1.isFaithful ih.2 hm]
      exact ih.2

theorem Settles.target?_eq_none (hr : r.WellFormed) {name : String} {t : DataType}
    (h : r.Settles name t) : t.target? = none :=
  (DataType.kind_ne_reference_iff t).1 (h.built hr).2

theorem Settles.lineage {name : String} {t : DataType} (h : r.Settles name t) :
    ∃ ancestors, r.IsLineage (name :: ancestors) := by
  induction h with
  | own h ht => exact ⟨[], .root h ht⟩
  | inherits h ht _ _ ih =>
      obtain ⟨ancestors, hl⟩ := ih
      exact ⟨_, .child (refersTo_iff.2 ⟨_, h, ht⟩) hl⟩

/-! ## Refinement -/

/-- Whether `r` has the entries of `d`, each as it was or settled. -/
structure Refines (d r : Registry) : Prop where
  keys : Table.keys r = Table.keys d
  entry : ∀ {name : String} {t : DataType}, r.get? name = some t →
    d.get? name = some t ∨ d.Settles name t

theorem Refines.refl (d : Registry) : Refines d d := ⟨rfl, .inl⟩

theorem Refines.has (h : Refines d r) (name : String) : r.has name = d.has name := by
  rw [Table.has_eq_any, Table.has_eq_any, h.keys]

theorem Refines.has_of_mem (h : Refines d r) {name : String} (hname : name ∈ Table.keys d) :
    r.has name = true :=
  (h.has name).trans ((Table.get?_isSome_iff d name).2 hname)

theorem Refines.wellFormed (hd : d.WellFormed) (h : Refines d r) : r.WellFormed where
  distinct := h.keys ▸ hd.distinct
  built hget := (h.entry hget).elim hd.built fun hs => (hs.built hd).1

theorem Refines.get?_of_target? (hd : d.WellFormed) (h : Refines d r) {name target : String}
    {t : DataType} (hget : r.get? name = some t) (ht : t.target? = some target) :
    d.get? name = some t := by
  rcases h.entry hget with hold | hs
  · exact hold
  · rw [hs.target?_eq_none hd] at ht
    cases ht

theorem Refines.settles_iff (hd : d.WellFormed) (h : Refines d r) {name : String} {t : DataType} :
    r.Settles name t ↔ d.Settles name t := by
  constructor
  · intro hs
    induction hs with
    | own hget ht => exact (h.entry hget).elim (.own · ht) id
    | inherits hget ht _ hm ih => exact .inherits (h.get?_of_target? hd hget ht) ht ih hm
  · intro hs
    have hhas := (h.has name).trans hs.has
    induction hs with
    | @own name t hget ht =>
        obtain ⟨u, hu⟩ := Option.isSome_iff_exists.1 hhas
        obtain rfl : t = u := by
          rcases h.entry hu with hold | hs
          · exact Option.some.inj (hget.symm.trans hold)
          · exact Settles.unique (.own hget ht) hs
        exact .own hu ht
    | @inherits name target current parent t hget ht hp hm ih =>
        -- the entry is as it was and still has to be settled, or is what it settles to
        obtain ⟨u, hu⟩ := Option.isSome_iff_exists.1 hhas
        rcases h.entry hu with hold | hs
        · obtain rfl := Option.some.inj (hget.symm.trans hold)
          exact .inherits hu ht (ih ((h.has target).trans hp.has)) hm
        · obtain rfl := Settles.unique (.inherits hget ht hp hm) hs
          exact .own hu (hs.target?_eq_none hd)

theorem Refines.trans (hd : d.WellFormed) (h : Refines d r) (h' : Refines r s) : Refines d s where
  keys := h'.keys.trans h.keys
  entry hget := (h'.entry hget).elim h.entry fun hs => .inr ((h.settles_iff hd).1 hs)

theorem Refines.get?_of_settled (h : Refines d r) {name : String} {t : DataType}
    (hget : d.get? name = some t) (ht : t.target? = none) : r.get? name = some t := by
  have hhas : r.has name = true := (h.has name).trans (by simp [Table.has, hget])
  obtain ⟨u, hu⟩ := Option.isSome_iff_exists.1 hhas
  rcases h.entry hu with hold | hs
  · rw [hu, ← hold, hget]
  · rw [hu, Settles.unique hs (.own hget ht)]

theorem Refines.refersTo (hd : d.WellFormed) (h : Refines d r) {name target : String}
    (hr : r.RefersTo name target) : d.RefersTo name target := by
  obtain ⟨t, hget, ht⟩ := refersTo_iff.1 hr
  exact refersTo_iff.2 ⟨t, h.get?_of_target? hd hget ht, ht⟩

theorem Refines.insert {name : String} {t : DataType} (hs : d.Settles name t) :
    Refines d (Table.insert d name t) where
  keys := by rw [Table.keys_insert, if_pos hs.has]
  entry {name' u} hget := by
    rw [Table.get?_insert] at hget
    split at hget
    · next heq =>
        obtain rfl := eq_of_beq heq
        obtain rfl := Option.some.inj hget
        exact .inr hs
    · exact .inl hget

/-! ## Settling one entry -/

/-- A merged declaration of an entry that cannot be built, and why. -/
def RebuildFault (r : Registry) (f : Fault) : Prop :=
  ∃ name target current parent, r.get? name = some current ∧ current.target? = some target ∧
    r.Settles target parent ∧ DataType.inheriting target parent current = .error f

/-- What is told of an entry that cannot be settled. -/
def SettleFault (r : Registry) (name : String) (f : Fault) : Prop :=
  r.LineageFault name f ∨ r.RebuildFault f

theorem LineageFault.of_refines (hd : d.WellFormed) (h : Refines d r) {name : String} {f : Fault}
    (hf : r.LineageFault name f) : d.LineageFault name f := by
  have hmono : r.RefersTo ≤ d.RefersTo := fun _ _ => h.refersTo hd
  cases hf with
  | cycle hx hcycle =>
      exact .cycle (ReflTransGen.mono hmono _ _ hx) (TransGen.mono hmono _ _ hcycle)
  | stray hx ht habsent =>
      exact .stray (ReflTransGen.mono hmono _ _ hx) (h.refersTo hd ht)
        ((h.has _).symm.trans habsent)

theorem RebuildFault.of_refines (hd : d.WellFormed) (h : Refines d r) {f : Fault}
    (hf : r.RebuildFault f) : d.RebuildFault f := by
  obtain ⟨name, target, current, parent, hget, ht, hs, hm⟩ := hf
  exact ⟨name, target, current, parent, h.get?_of_target? hd hget ht, ht,
    (h.settles_iff hd).1 hs, hm⟩

theorem inheritFrom_result (parentName : String) (parent : DataType) (name : String)
    (r : Registry) :
    (inheritFrom parentName parent name r).result =
      match r.get? name with
      | none => (r, .error (.unresolvedType name none))
      | some current =>
          match DataType.inheriting parentName parent current with
          | .error e => (r, .error e)
          | .ok t => (Table.insert r name t, .ok t) := by
  unfold inheritFrom
  rw [Edit.result_bind_ok (Edit.result_get r)]
  cases r.get? name with
  | none => rfl
  | some current =>
      refine (Edit.result_bind _ _ r).trans ?_
      simp only [Edit.result_traced, DataType.outcome_traced, DataType.inheriting]
      cases DataType.build true current.name
        (.map (Declaration.merge parent.declaration current.declaration)) <;> rfl

theorem settleLineage_spec (hr : r.WellFormed) {name : String} {ancestors : List String}
    (h : r.IsLineage (name :: ancestors)) :
    ∃ s, Refines r s ∧ (∀ x, x ∉ name :: ancestors → s.get? x = r.get? x) ∧
      ((∃ t, (settleLineage (name :: ancestors) r).result = (s, .ok (some (name, t))) ∧
          r.Settles name t ∧ s.get? name = some t) ∨
        ∃ f, (settleLineage (name :: ancestors) r).result = (s, .error f) ∧ r.RebuildFault f) := by
  -- the ancestors are settled first, from the root down; they leave the entry of `name` alone
  induction ancestors generalizing name with
  | nil =>
      cases h with
      | root hget ht =>
          refine ⟨r, .refl r, fun _ _ => rfl, .inl ⟨_, ?_, .own hget ht, hget⟩⟩
          have hnone : (settleLineage [] r).result = (r, .ok none) := rfl
          rw [settleLineage, Edit.result_bind_ok hnone]
          show (((Edit.get : Edit Registry Registry) >>= _) r).result = _
          rw [Edit.result_bind_ok (Edit.result_get r), hget]
          rfl
  | cons target ancestors ih =>
      have hout : name ∉ target :: ancestors := h.not_mem
      cases h with
      | child href tail =>
          obtain ⟨s, hs, hframe, hrun⟩ := ih tail
          have hframe' : ∀ x, x ∉ name :: target :: ancestors → s.get? x = r.get? x := fun x hx =>
            hframe x fun hm => hx (List.mem_cons_of_mem _ hm)
          rw [settleLineage]
          rcases hrun with ⟨parent, hrun, hparent, -⟩ | ⟨f, hrun, hf⟩
          · obtain ⟨current, hget, ht⟩ := refersTo_iff.1 href
            have hcurrent : s.get? name = some current := (hframe name hout).trans hget
            have hstep := inheritFrom_result target parent name s
            rw [hcurrent] at hstep
            rw [Edit.result_bind_ok hrun]
            cases hm : DataType.inheriting target parent current with
            | error f =>
                simp only [hm] at hstep
                refine ⟨s, hs, hframe', .inr ⟨f, ?_, name, target, current, parent, hget, ht,
                  hparent, hm⟩⟩
                exact Edit.result_bind_error hstep _
            | ok t =>
                simp only [hm] at hstep
                have hsettled : r.Settles name t := .inherits hget ht hparent hm
                refine ⟨Table.insert s name t, ?_, ?_, .inl ⟨t, ?_, hsettled, ?_⟩⟩
                · -- what an entry settles to is the same before and after its ancestors are settled
                  exact hs.trans hr (.insert ((hs.settles_iff hr).2 hsettled))
                · intro x hx
                  rw [Table.get?_insert, if_neg, hframe' x hx]
                  intro he
                  exact hx (by simp [eq_of_beq he])
                · exact Edit.result_bind_ok hstep _
                · simp [Table.get?_insert]
          · exact ⟨s, hs, hframe', .inr ⟨f, Edit.result_bind_error hrun _, hf⟩⟩

theorem settle_spec (hr : r.WellFormed) {name : String} (hname : r.has name = true) :
    ∃ s, Refines r s ∧
      ((∃ t, (settle name r).result = (s, .ok ()) ∧ r.Settles name t ∧ s.get? name = some t) ∨
        ∃ f, (settle name r).result = (s, .error f) ∧ r.SettleFault name f) := by
  have hget : ∀ {α : Type} (k : Registry → Edit Registry α),
      (((Edit.get : Edit Registry Registry) >>= k) r).result = (k r r).result := fun k =>
    Edit.result_bind_ok (Edit.result_get r) k
  unfold settle
  rw [hget]
  rcases lineage_spec hname with ⟨ancestors, hl, hlineage⟩ | ⟨f, hl, hfault⟩
  · have hlookup := Edit.result_except (r.lineage name) r
    rw [hl] at hlookup ⊢
    rw [Edit.result_bind_ok hlookup]
    obtain ⟨s, hs, -, ⟨t, hrun, ht, hsome⟩ | ⟨f, hrun, hf⟩⟩ := settleLineage_spec hr hlineage
    · exact ⟨s, hs, .inl ⟨t, Edit.result_bind_ok hrun _, ht, hsome⟩⟩
    · exact ⟨s, hs, .inr ⟨f, Edit.result_bind_error hrun _, .inr hf⟩⟩
  · have hlookup := Edit.result_except (r.lineage name) r
    rw [hl] at hlookup ⊢
    exact ⟨r, .refl r, .inr ⟨f, Edit.result_bind_error hlookup _, .inl hfault⟩⟩

end Registry

end Raml
