import Raml.Proofs.Registry.Populating

/-! # Order of registration

Registering the same types in another order, with inheritance applied at other
times in between, makes no difference to inheritance applied in the end: both
runs refine registries that look the same, and what an entry settles to is a
matter of looks alone.
-/

namespace Raml

namespace Registry

variable {d d' r : Registry}

/-! ## Registries that look the same -/

/-- Whether two registries have the same entries, in whatever order. -/
def Alike (d d' : Registry) : Prop := ∀ name, d.get? name = d'.get? name

theorem Alike.has (h : Alike d d') (name : String) : d.has name = d'.has name := by
  rw [Table.has, Table.has, h name]

theorem Alike.settles_iff (h : Alike d d') {name : String} {t : DataType} :
    d.Settles name t ↔ d'.Settles name t :=
  ⟨.mono fun hget => h _ ▸ hget, .mono fun hget => (h _).symm ▸ hget⟩

theorem Alike.applies_iff (hd : d.WellFormed) (hd' : d'.WellFormed) (h : Alike d d') :
    d.Applies ↔ d'.Applies := by
  rw [Registry.applies_iff hd, Registry.applies_iff hd']
  simp only [Dangles, h.has, h.settles_iff]

/-! ## The declared types in any order -/

theorem Alike.add (h : Alike d d') (t : DataType) (key : Option String) :
    Alike (d.add t key) (d'.add t key) := by
  intro name
  rw [get?_add, get?_add, h name]

theorem Alike.foldl_add (h : Alike d d') (as : List Registration) :
    Alike (as.foldl (fun r a => r.add a.type a.key) d)
      (as.foldl (fun r a => r.add a.type a.key) d') := by
  induction as generalizing d d' with
  | nil => exact h
  | cons a rest ih => exact ih (h.add a.type a.key)

/-- Registrations under distinct names may be made in any order. -/
theorem foldl_add_alike {as bs : List Registration} (hperm : as.Perm bs)
    (hdistinct : (as.map Registration.name).Nodup) (h : Alike d d') :
    Alike (as.foldl (fun r a => r.add a.type a.key) d)
      (bs.foldl (fun r a => r.add a.type a.key) d') := by
  induction hperm generalizing d d' with
  | nil => exact h
  | cons a _ ih => exact ih (List.nodup_cons.1 hdistinct).2 (h.add a.type a.key)
  | swap a b as =>
      have hne : b.name ≠ a.name := by
        intro he
        simp [he] at hdistinct
      -- the two writes touch different names, and the rest of the run is the same
      have hswap : Alike ((d.add b.type b.key).add a.type a.key)
          ((d'.add a.type a.key).add b.type b.key) := by
        intro name
        simp only [get?_add, h name]
        by_cases ha : keyFor a.type a.key = name
        · have hb : ¬ keyFor b.type b.key = name := fun hb => hne (hb.trans ha.symm)
          simp [ha, hb]
        · simp [ha]
      exact hswap.foldl_add as
  | trans h₁ _ ih₁ ih₂ =>
      have hdistinct' := (h₁.map Registration.name).nodup_iff.1 hdistinct
      exact fun name => (ih₁ hdistinct h name).trans (ih₂ hdistinct' (fun _ => rfl) name)

/-! ## Confluence -/

/-- Applying inheritance once more changes nothing. -/
theorem Applies.applied_applied (hr : r.WellFormed) (h : r.Applies) :
    r.applied.Applies ∧ r.applied.applied = r.applied := by
  have hfirst := applied_refines hr
  have happlies : r.applied.Applies := (hfirst.applies_iff hr).2 h
  have hsecond := applied_refines hr.applied
  refine ⟨happlies, Table.eq_of_get? hsecond.keys (hsecond.wellFormed hr.applied).distinct ?_⟩
  intro name
  refine Option.ext fun t => ?_
  rw [hfirst.get?_applied_iff hr happlies, get?_applied_iff hr h]

/-- Inheritance is confluent: the order of registration and the calls in between make no difference
to whether it applies in the end, nor to what any name maps to then. -/
theorem applyInheritance_confluent {types : List Registration}
    (hbuilt : ∀ a ∈ types, a.type.IsBuilt) (hdistinct : (types.map Registration.name).Nodup)
    {ops ops' : List Operation} (hops : (registrations ops).Perm types)
    (hops' : (registrations ops').Perm types) :
    ((run ops).Applies ↔ (run ops').Applies) ∧
      ((run ops).Applies →
        (∀ name, (run ops).applied.get? name = (run ops').applied.get? name) ∧
          (run ops).applied.Applies ∧ (run ops).applied.applied = (run ops).applied) := by
  have hpopulated : ∀ {ops : List Operation}, (registrations ops).Perm types →
      (declared (registrations ops)).WellFormed ∧
        Refines (declared (registrations ops)) (run ops) := fun {ops} hops =>
    (run_populated ops (fun a ha => hbuilt a (hops.subset ha))
      ((hops.map Registration.name).nodup_iff.2 hdistinct)).refines
  obtain ⟨hd, hr⟩ := hpopulated hops
  obtain ⟨hd', hr'⟩ := hpopulated hops'
  have halike : Alike (declared (registrations ops)) (declared (registrations ops')) :=
    foldl_add_alike (hops.trans hops'.symm) ((hops.map Registration.name).nodup_iff.2 hdistinct)
      fun _ => rfl
  have hiff : (run ops).Applies ↔ (run ops').Applies := by
    rw [hr.applies_iff hd, hr'.applies_iff hd', halike.applies_iff hd hd']
  refine ⟨hiff, fun happlies => ⟨fun name => ?_, happlies.applied_applied (hr.wellFormed hd)⟩⟩
  refine Option.ext fun t => ?_
  rw [hr.get?_applied_iff hd happlies, hr'.get?_applied_iff hd' (hiff.1 happlies),
    halike.settles_iff]

/-- Subtypes first, with a call that fails before the oldest type is there, or in order. -/
theorem applyInheritance_confluent_vehicles :
    ¬ (run [.add van, .add car]).Applies ∧
      (run [.add van, .add car, .applyInheritance, .add vehicle]).Applies ∧
      ∀ name, (run [.add van, .add car, .applyInheritance, .add vehicle]).applied.get? name =
        (run [.add vehicle, .add car, .applyInheritance, .add van]).applied.get? name := by
  have happlies : (run [.add van, .add car, .applyInheritance, .add vehicle]).Applies := by
    decide
  have hyoungest : (registrations [.add van, .add car, .applyInheritance, .add vehicle]).Perm
      vehicles := .refl _
  have holdest : (registrations [.add vehicle, .add car, .applyInheritance, .add van]).Perm
      vehicles := List.reverse_perm vehicles
  exact ⟨by decide, happlies, ((applyInheritance_confluent vehicles_isBuilt
    vehicles_distinct hyoungest holdest).2 happlies).1⟩

end Registry

end Raml
