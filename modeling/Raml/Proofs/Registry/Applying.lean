import Raml.Proofs.Registry.Settling

/-! # Applying inheritance

Applying inheritance refines the registry, whether it succeeds or fails. It
succeeds exactly if every entry settles and no settled entry has a reference
without a target inside, and then every name maps to what its entry settles to.
A fault tells of an entry that does not settle or of such a reference.
-/

namespace Raml

namespace Registry

variable {r s : Registry}

def applied (r : Registry) : Registry := (applyInheritance r).state

def Applies (r : Registry) : Prop := (applyInheritance r).outcome = .ok ()

instance (r : Registry) : Decidable r.Applies :=
  match h : (applyInheritance r).outcome with
  | .ok () => isTrue h
  | .error _ => isFalse fun h' => nomatch h.symm.trans h'

/-- Every entry is settled first; if that succeeds, the references that are left are checked. -/
theorem applied_cases (r : Registry) :
    (∃ f, (Edit.forEach settle (Table.keys r) r).result = (r.applied, .error f) ∧
        (applyInheritance r).outcome = .error f) ∨
      (Edit.forEach settle (Table.keys r) r).result = (r.applied, .ok ()) ∧
        (applyInheritance r).outcome = r.applied.checkReferences := by
  have hresult : (applyInheritance r).result =
      match (Edit.forEach settle (Table.keys r) r).result with
      | (s, .ok _) => (s, s.checkReferences)
      | (s, .error f) => (s, .error f) := by
    unfold applyInheritance
    rw [Edit.result_bind_ok (Edit.result_get r)]
    refine (Edit.result_bind _ _ r).trans ?_
    rcases (Edit.forEach settle (Table.keys r) r).result with ⟨s, e | u⟩
    · rfl
    · dsimp only
      rw [Edit.result_bind_ok (Edit.result_get s)]
      exact Edit.result_except s.checkReferences s
  rcases hrun : (Edit.forEach settle (Table.keys r) r).result with ⟨s, f | u⟩
  · rw [hrun] at hresult
    obtain rfl : r.applied = s := congrArg Prod.fst hresult
    exact .inl ⟨f, rfl, congrArg Prod.snd hresult⟩
  · rw [hrun] at hresult
    obtain rfl : r.applied = s := congrArg Prod.fst hresult
    exact .inr ⟨rfl, congrArg Prod.snd hresult⟩

/-! ## Settling every entry -/

theorem settle_refines (hs : s.WellFormed) {name : String} (hname : s.has name = true) :
    Refines s (settle name s).result.1 := by
  obtain ⟨s', h, ⟨t, hrun, -⟩ | ⟨f, hrun, -⟩⟩ := settle_spec hs hname <;> rwa [hrun]

theorem settle_step (hr : r.WellFormed) :
    ∀ name ∈ Table.keys r, ∀ s, Refines r s → Refines r (settle name s).result.1 := by
  intro name hname s h
  exact h.trans hr (settle_refines (h.wellFormed hr) (h.has_of_mem hname))

theorem forEach_settle_refines (hr : r.WellFormed) :
    Refines r (Edit.forEach settle (Table.keys r) r).result.1 :=
  Edit.forEach_keeps (settle_step hr) (.refl r)

/-- A run over all entries that succeeds leaves each of them settled: later ones keep it so. -/
theorem forEach_settle_ok (hr : r.WellFormed)
    (hrun : (Edit.forEach settle (Table.keys r) r).result = (s, .ok ())) :
    ∀ name ∈ Table.keys r, ∃ t, r.Settles name t ∧ s.get? name = some t := by
  refine Edit.forEach_establishes (Q := fun name s => ∃ t, r.Settles name t ∧ s.get? name = some t)
    (settle_step hr) ?frame ?establish (.refl r) hrun
  case frame =>
    intro name hname other s h hother
    obtain ⟨t, ht, hget⟩ := hother
    have hstep := settle_refines (h.wellFormed hr) (h.has_of_mem hname)
    exact ⟨t, ht, hstep.get?_of_settled hget (ht.target?_eq_none hr)⟩
  case establish =>
    intro name hname s s' h hstep
    obtain ⟨s'', -, ⟨t, hok, ht, hget⟩ | ⟨f, herror, -⟩⟩ :=
      settle_spec (h.wellFormed hr) (h.has_of_mem hname)
    · rw [hok] at hstep
      cases hstep
      exact ⟨t, (h.settles_iff hr).1 ht, hget⟩
    · rw [herror] at hstep
      cases hstep

theorem forEach_settle_error (hr : r.WellFormed) {f : Fault}
    (hrun : (Edit.forEach settle (Table.keys r) r).result = (s, .error f)) :
    ∃ name, r.has name = true ∧ r.SettleFault name f := by
  obtain ⟨name, hname, s', h, hstep⟩ := Edit.exists_of_forEach_error (settle_step hr) (.refl r) hrun
  obtain ⟨s'', -, ⟨t, hok, -⟩ | ⟨f', herror, hf⟩⟩ :=
    settle_spec (h.wellFormed hr) (h.has_of_mem hname)
  · rw [hok] at hstep
    cases hstep
  · rw [herror] at hstep
    cases hstep
    exact ⟨name, (Table.get?_isSome_iff r name).2 hname,
      hf.imp (·.of_refines hr h) (·.of_refines hr h)⟩

/-! ## The outcome -/

theorem applied_refines (hr : r.WellFormed) : Refines r r.applied := by
  have h := forEach_settle_refines hr
  rcases applied_cases r with ⟨f, hrun, -⟩ | ⟨hrun, -⟩ <;> rwa [hrun] at h

theorem applied_settled (hr : r.WellFormed) (h : r.Applies) {name : String}
    (hname : r.has name = true) : ∃ t, r.Settles name t ∧ r.applied.get? name = some t := by
  rcases applied_cases r with ⟨f, -, hout⟩ | ⟨hrun, -⟩
  · cases h.symm.trans hout
  · exact forEach_settle_ok hr hrun name ((Table.get?_isSome_iff r name).1 hname)

/-- Once inheritance is applied, each name maps to what its entry settles to. -/
theorem get?_applied_iff (hr : r.WellFormed) (h : r.Applies) {name : String} {t : DataType} :
    r.applied.get? name = some t ↔ r.Settles name t := by
  constructor
  · intro hget
    have hname : r.has name = true := by
      rw [← (applied_refines hr).has]
      simp [Table.has, hget]
    obtain ⟨u, hu, hget'⟩ := applied_settled hr h hname
    rw [hget] at hget'
    cases hget'
    exact hu
  · intro hs
    obtain ⟨u, hu, hget⟩ := applied_settled hr h hs.has
    rw [hget, hu.unique hs]

theorem dangles_congr (h : Refines r s) {t : DataType} {target : String} :
    s.Dangles t target ↔ r.Dangles t target := by
  simp only [Dangles, h.has]

theorem Settles.not_settleFault (h : ∀ name, r.has name = true → ∃ t, r.Settles name t)
    {name : String} {f : Fault} (hname : r.has name = true) : ¬ r.SettleFault name f := by
  rintro (hf | ⟨name', target, current, parent, hget, ht, hp, hm⟩)
  · obtain ⟨t, hs⟩ := h name hname
    obtain ⟨ancestors, hl⟩ := hs.lineage
    cases hf with
    | cycle hx hcycle => exact hl.not_revisits ⟨_, hx, hcycle⟩
    | stray hx hr habsent => exact hl.not_strays ⟨_, hx.tail hr, habsent⟩
  · obtain ⟨t, hs⟩ := h name' (by simp [Table.has, hget])
    obtain ⟨parent', hp', hm'⟩ := hs.of_refersTo hget ht
    rw [hp.unique hp', hm'] at hm
    cases hm

/-- What is told of an entry that does not settle, or of a reference without a target in one that
does. -/
theorem applyInheritance_fault (hr : r.WellFormed) {f : Fault}
    (h : (applyInheritance r).outcome = .error f) :
    (∃ name, r.has name = true ∧ r.SettleFault name f) ∨
      ∃ name t target, r.Settles name t ∧ r.Dangles t target ∧
        f = .unresolvedType target (some name) := by
  rcases applied_cases r with ⟨f', hrun, hout⟩ | ⟨hrun, hout⟩
  · cases h.symm.trans hout
    exact .inl (forEach_settle_error hr hrun)
  · have hrefines := applied_refines hr
    obtain ⟨e, he, target, hd, rfl⟩ := checkReferences_fault (hout.symm.trans h)
    have hname : e.1 ∈ Table.keys r := hrefines.keys ▸ Table.mem_keys.2 ⟨e.2, he⟩
    obtain ⟨t, ht, hget⟩ := forEach_settle_ok hr hrun e.1 hname
    have hdistinct := (Table.distinct_iff_nodup _).2 (hrefines.wellFormed hr).distinct
    have hsame := (Table.get?_of_mem hdistinct he).symm.trans hget
    cases hsame
    exact .inr ⟨e.1, e.2, target, ht, (dangles_congr hrefines).1 hd, rfl⟩

/-- Applying inheritance succeeds exactly if every entry settles and nothing dangles then. -/
theorem applies_iff (hr : r.WellFormed) :
    r.Applies ↔ (∀ name, r.has name = true → ∃ t, r.Settles name t) ∧
      ∀ name t target, r.Settles name t → ¬ r.Dangles t target := by
  constructor
  · intro h
    refine ⟨fun name hname => ?_, fun name t target hs hd => ?_⟩
    · obtain ⟨t, ht, -⟩ := applied_settled hr h hname
      exact ⟨t, ht⟩
    · rcases applied_cases r with ⟨f, -, hout⟩ | ⟨-, hout⟩
      · cases h.symm.trans hout
      · have hcheck := checkReferences_eq_ok_iff.1 (hout.symm.trans h)
        obtain ⟨k, hk, hm⟩ := Table.mem_of_get? ((get?_applied_iff hr h).2 hs)
        exact hcheck (k, t) hm target ((dangles_congr (applied_refines hr)).2 hd)
  · rintro ⟨hsettle, hdangle⟩
    cases hout : (applyInheritance r).outcome with
    | ok u => exact hout
    | error f =>
        rcases applyInheritance_fault hr hout with ⟨name, hname, hf⟩ | ⟨name, t, target, hs, hd, -⟩
        · exact absurd hf (Settles.not_settleFault hsettle hname)
        · exact absurd hd (hdangle name t target hs)

end Registry

end Raml
