import Raml.Proofs.Registry.Populating

/-! # The outcome of applying inheritance

Applying inheritance fails on every chain of references that comes back or
leaves the registry, and on every nested reference without a target; it tells
of a cycle or of a missing type only if there is one. Otherwise it succeeds as
far as the merged declarations can be built, and from then on every bound
reference to a registered name is one lookup away from its type.
-/

namespace Raml

namespace Registry

open Relation

variable {d r : Registry}

def Rebuildable (r : Registry) : Prop :=
  ∀ {name target : String} {current parent : DataType}, r.get? name = some current →
    current.target? = some target → r.Settles target parent →
      ∃ t, DataType.inheriting target parent current = .ok t

/-- Whether the chain of references from some entry comes back or leaves the registry. -/
def HasBadChain (r : Registry) : Prop :=
  ∃ name, r.has name = true ∧ (r.Revisits name ∨ r.Strays name)

/-- Whether a reference inside a settled entry names no registered type. -/
def HasDangling (r : Registry) : Prop :=
  ∃ name t target, r.Settles name t ∧ r.Dangles t target

/-- An entry with a good chain settles, one ancestor after the other. -/
theorem IsLineage.settles (hr : r.Rebuildable) {name : String} {ancestors : List String}
    (h : r.IsLineage (name :: ancestors)) : ∃ t, r.Settles name t := by
  induction ancestors generalizing name with
  | nil =>
      cases h with
      | root hget ht => exact ⟨_, .own hget ht⟩
  | cons target ancestors ih =>
      cases h with
      | child href tail =>
          obtain ⟨parent, hp⟩ := ih tail
          obtain ⟨current, hget, ht⟩ := refersTo_iff.1 href
          obtain ⟨t, hm⟩ := hr hget ht hp
          exact ⟨t, .inherits hget ht hp hm⟩

theorem Applies.not_hasBadChain (hr : r.WellFormed) (h : r.Applies) : ¬ r.HasBadChain := by
  rintro ⟨name, hname, hbad⟩
  obtain ⟨t, hs⟩ := ((applies_iff hr).1 h).1 name hname
  obtain ⟨ancestors, hl⟩ := hs.lineage
  exact hbad.elim hl.not_revisits hl.not_strays

theorem applies_of_rebuildable (hr : r.WellFormed) (hchain : ¬ r.HasBadChain)
    (hdangling : ¬ r.HasDangling) (hrebuild : r.Rebuildable) : r.Applies := by
  refine (applies_iff hr).2 ⟨fun name hname => ?_, fun name t target hs hd => ?_⟩
  · obtain ⟨ancestors, hl⟩ := exists_lineage hname
      (fun hc => hchain ⟨name, hname, .inl hc⟩) fun hs => hchain ⟨name, hname, .inr hs⟩
    exact hl.settles hrebuild
  · exact hdangling ⟨name, t, target, hs, hd⟩

/-- A cycle is told of only if some chain comes back. -/
theorem revisits_of_cycle (hr : r.WellFormed) {chain : List String}
    (h : (applyInheritance r).outcome = .error (.inheritanceCycle chain)) :
    ∃ name, r.has name = true ∧ r.Revisits name := by
  rcases applyInheritance_fault hr h with ⟨name, hname, hf | hf⟩ | ⟨name, t, target, -, -, he⟩
  · cases hf with
    | cycle hx hcycle => exact ⟨name, hname, _, hx, hcycle⟩
  · obtain ⟨_, _, _, _, -, -, -, hm⟩ := hf
    exact absurd rfl (DataType.inheriting_fault hm).ne_inheritanceCycle
  · cases he

/-- A missing type is told of only if it is missing and an entry or a reference in a settled entry
names it. -/
theorem refers_of_unresolved (hr : r.WellFormed) {target : String} {referencedBy : Option String}
    (h : (applyInheritance r).outcome = .error (.unresolvedType target referencedBy)) :
    r.has target = false ∧
      ((∃ name, r.RefersTo name target) ∨ ∃ name t, r.Settles name t ∧ r.Dangles t target) := by
  rcases applyInheritance_fault hr h with ⟨name, hname, hf | hf⟩ | ⟨name, t, target', hs, hd, he⟩
  · cases hf with
    | stray hx href habsent => exact ⟨habsent, .inl ⟨_, href⟩⟩
  · obtain ⟨_, _, _, _, -, -, -, hm⟩ := hf
    exact absurd rfl (DataType.inheriting_fault hm).ne_unresolvedType
  · cases he
    obtain ⟨u, hu, ht, habsent⟩ := hd
    exact ⟨habsent, .inr ⟨name, t, hs, u, hu, ht, habsent⟩⟩

/-- Once inheritance is applied, a bound reference to a registered name is resolved by looking up
that name alone. -/
theorem Applies.resolves (hr : r.WellFormed) (h : r.Applies) (c : Common) {target : String}
    (htarget : r.has target = true) :
    ∃ u, r.applied.get? target = some u ∧ u.kind ≠ .reference ∧
      (DataType.reference c target true).resolve r.applied = .ok u ∧
      ∀ names v, r.applied.Follows (.reference c target true) names v ↔
        names = [target] ∧ v = u := by
  obtain ⟨u, hs⟩ := ((applies_iff hr).1 h).1 target htarget
  have hget := (get?_applied_iff hr h).2 hs
  have hu := hs.target?_eq_none hr
  have hstep : r.applied.Follows (.reference c target true) [target] u := .step hget (.here hu)
  refine ⟨u, hget, (hs.built hr).2, resolve_eq_ok_iff.2 ⟨[target], by simp, hstep⟩, ?_⟩
  intro names v
  constructor
  · intro hf
    cases hf with
    | here ht => cases ht
    | step hget' hrest =>
        rw [hget] at hget'
        cases hget'
        cases hrest with
        | here _ => exact ⟨rfl, rfl⟩
        | step _ _ => cases hu
  · rintro ⟨rfl, rfl⟩
    exact hstep

/-- What applying inheritance comes to, whatever the references between the entries. -/
theorem applyInheritance_outcome (hr : r.WellFormed) :
    (r.HasBadChain ∨ r.HasDangling → ∃ f, (applyInheritance r).outcome = .error f) ∧
      (∀ chain, (applyInheritance r).outcome = .error (.inheritanceCycle chain) →
        ∃ name, r.has name = true ∧ r.Revisits name) ∧
      (∀ target referencedBy,
        (applyInheritance r).outcome = .error (.unresolvedType target referencedBy) →
          r.has target = false ∧ ((∃ name, r.RefersTo name target) ∨
            ∃ name t, r.Settles name t ∧ r.Dangles t target)) ∧
      (¬ r.HasBadChain → ¬ r.HasDangling → r.Rebuildable →
        (applyInheritance r).outcome = .ok ()) ∧
      ((applyInheritance r).outcome = .ok () →
        (∀ name t, r.applied.get? name = some t → t.kind ≠ .reference) ∧
          ∀ c target, r.has target = true →
            ∃ u, r.applied.get? target = some u ∧ u.kind ≠ .reference ∧
              (DataType.reference c target true).resolve r.applied = .ok u ∧
              ∀ names v, r.applied.Follows (.reference c target true) names v ↔
                names = [target] ∧ v = u) := by
  refine ⟨fun hbad => ?_, fun chain h => revisits_of_cycle hr h,
    fun target referencedBy h => refers_of_unresolved hr h, applies_of_rebuildable hr,
    fun h => ⟨fun name t hget => ?_, fun c target ht => Applies.resolves hr h c ht⟩⟩
  · cases hout : (applyInheritance r).outcome with
    | error f => exact ⟨f, rfl⟩
    | ok u =>
        rcases hbad with hchain | ⟨name, t, target, hs, hd⟩
        · exact absurd hchain (Applies.not_hasBadChain hr hout)
        · exact absurd hd (((applies_iff hr).1 hout).2 name t target hs)
  · exact (((get?_applied_iff hr h).1 hget).built hr).2

/-- Without the oldest of the sample the chains leave the registry; with it a reference to the
youngest resolves. -/
theorem applyInheritance_outcome_vehicles :
    (∃ f, (applyInheritance (run [.add van, .add car])).outcome = .error f) ∧
      ∀ c, ∃ u, (run [.add van, .add car, .add vehicle]).applied.get? "Van" = some u ∧
        (DataType.reference c "Van" true).resolve
          (run [.add van, .add car, .add vehicle]).applied = .ok u := by
  have hstrays : (run [.add van, .add car]).Strays "Van" :=
    ⟨"Vehicle", .head (by decide) (.single (by decide : RefersTo _ "Car" _)),
      by decide⟩
  have hshort : (run [.add van, .add car]).WellFormed := run_wellFormed _ fun a ha =>
    vehicles_isBuilt a (List.dropLast_subset vehicles ha)
  have hwhole : (run [.add van, .add car, .add vehicle]).WellFormed :=
    run_wellFormed _ vehicles_isBuilt
  refine ⟨(applyInheritance_outcome hshort).1
    (.inl ⟨"Van", by decide, .inr hstrays⟩), fun c => ?_⟩
  obtain ⟨u, hget, -, hresolve, -⟩ :=
    ((applyInheritance_outcome hwhole).2.2.2.2 vehicles_applies).2 c "Van" (by decide)
  exact ⟨u, hget, hresolve⟩

end Registry

end Raml
