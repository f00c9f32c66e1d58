import Raml.Proofs.DataType.Members

/-! # How references resolve

A bound reference is followed from target to target. Whatever was done to the
registry before, registered references are bound, so the chain of targets
either comes to an entry that is no reference, or leaves the registry, or comes
back to one of its names; exactly one of the three, and the outcome tells which.
No target is looked up twice, and at most one that is not registered.
-/

namespace Raml

open Relation

/-! ## Bound entries -/

namespace DataType

theorem withBinding_withBinding (t : DataType) (bound : Bool) :
    (t.withBinding bound).withBinding bound = t.withBinding bound := by
  cases t <;> rfl

/-- What is built with a registry at hand is not changed by being bound. -/
theorem withBinding_build {name : String} {definition : Value} {t : DataType}
    (h : build true name definition = .ok t) : t.withBinding true = t := by
  obtain ⟨⟨name', d, shape⟩, nested, -, -, ha⟩ := build_eq_ok_iff.1 h
  cases assemble_eq_ok_iff.1 ha <;> rfl

theorem withBinding_withParent (t : DataType) (bound : Bool) (parent : String) :
    (t.withParent parent).withBinding bound = (t.withBinding bound).withParent parent := by
  cases t <;> rfl

end DataType

namespace Registry

variable {r : Registry}

/-- Whether all entries that are references are bound. -/
def HoldsBound (r : Registry) : Prop :=
  ∀ name t, r.get? name = some t → t.withBinding true = t

theorem HoldsBound.insert (hr : r.HoldsBound) (name : String) {t : DataType}
    (ht : t.withBinding true = t) : HoldsBound (Table.insert r name t) := by
  intro name' u hget
  rw [Table.get?_insert] at hget
  split at hget
  · obtain rfl := Option.some.inj hget
    exact ht
  · exact hr name' u hget

theorem HoldsBound.add (hr : r.HoldsBound) (t : DataType) (key : Option String) :
    (r.add t key).HoldsBound :=
  hr.insert _ (t.withBinding_withBinding true)

theorem inheritFrom_keeps (parentName : String) (parent : DataType) (name : String) :
    Edit.Keeps HoldsBound (inheritFrom parentName parent name) := by
  intro r hr
  rw [inheritFrom_result]
  cases r.get? name with
  | none => exact hr
  | some current =>
      cases hm : DataType.inheriting parentName parent current with
      | error f => simpa only [hm] using hr
      | ok t =>
          simp only [hm]
          obtain ⟨u, hu, rfl⟩ := Except.map_eq_ok_iff.1 hm
          refine hr.insert name ?_
          rw [DataType.withBinding_withParent, DataType.withBinding_build hu]

theorem settleLineage_keeps (names : List String) :
    Edit.Keeps HoldsBound (settleLineage names) := by
  induction names with
  | nil => exact .pure none
  | cons name ancestors ih =>
      refine ih.bind fun settled => ?_
      cases settled with
      | none => exact Edit.Keeps.get.bind fun _ => .pure _
      | some parent => exact (inheritFrom_keeps parent.1 parent.2 name).bind fun t => .pure _

theorem settle_keeps (name : String) : Edit.Keeps HoldsBound (settle name) :=
  Edit.Keeps.get.bind fun r => (Edit.Keeps.except (r.lineage name)).bind fun names =>
    (settleLineage_keeps names).bind fun _ => .pure ()

theorem applyInheritance_keeps : Edit.Keeps HoldsBound applyInheritance :=
  Edit.Keeps.get.bind fun _ => (Edit.Keeps.forEach settle_keeps).bind fun _ =>
    Edit.Keeps.get.bind fun s => .except s.checkReferences

/-! ## Steps -/

inductive Step
  | operate (op : Operation)
  | clear

def Step.edit : Step → Edit Registry Unit
  | .operate op => op.edit
  | .clear => Edit.set []

/-- The registry that steps from an empty one leave, also those that fail. -/
def after (steps : List Step) : Registry := steps.foldl (fun r step => (step.edit r).state) []

theorem Step.keeps (step : Step) : Edit.Keeps HoldsBound step.edit := by
  cases step with
  | clear => exact .set fun name t hget => by cases hget
  | operate op =>
      cases op with
      | add a => exact fun r hr => hr.add a.type a.key
      | applyInheritance => exact applyInheritance_keeps

theorem foldl_step_holdsBound (steps : List Step) (hr : r.HoldsBound) :
    (steps.foldl (fun r step => (step.edit r).state) r).HoldsBound := by
  induction steps generalizing r with
  | nil => exact hr
  | cons step rest ih => exact ih (step.keeps r hr)

/-- Whatever is done to a registry, its references are bound. -/
theorem after_holdsBound (steps : List Step) : (after steps).HoldsBound :=
  foldl_step_holdsBound steps fun name t hget => by cases hget

/-! ## Looking up targets -/

/-- How a reference is resolved after some targets were seen: which names are looked up, one after the
other, and what comes of it. -/
inductive LooksUp (r : Registry) :
    List String → DataType → List String → Except Fault DataType → Prop
  | found {seen : List String} {t : DataType} (h : t.target? = none) : LooksUp r seen t [] (.ok t)
  | unbound {seen : List String} {c : Common} {target : String} :
      LooksUp r seen (.reference c target false) [] (.error (.unresolvedType target (some c.name)))
  | repeated {seen : List String} {c : Common} {target : String} (h : target ∈ seen) :
      LooksUp r seen (.reference c target true) [] (.error (.inheritanceCycle (seen ++ [target])))
  | missing {seen : List String} {c : Common} {target : String} (h : target ∉ seen)
      (hget : r.get? target = none) :
      LooksUp r seen (.reference c target true) [target]
        (.error (.unresolvedType target (some c.name)))
  | next {seen names : List String} {c : Common} {target : String} {t : DataType}
      {x : Except Fault DataType} (h : target ∉ seen) (hget : r.get? target = some t)
      (rest : LooksUp r (seen ++ [target]) t names x) :
      LooksUp r seen (.reference c target true) (target :: names) x

/-- Whether some targets are registered, no two of them equal. -/
structure Seen (r : Registry) (seen : List String) : Prop where
  distinct : seen.Nodup
  registered : ∀ name ∈ seen, r.has name = true

theorem Seen.nil : r.Seen [] := ⟨.nil, by simp⟩

theorem Seen.snoc {seen : List String} (h : r.Seen seen) {target : String} (hnew : target ∉ seen)
    (hhas : r.has target = true) : r.Seen (seen ++ [target]) where
  distinct := by
    rw [List.nodup_append]
    refine ⟨h.distinct, by simp, fun a ha b hb heq => ?_⟩
    obtain rfl := List.mem_singleton.1 hb
    exact hnew (heq ▸ ha)
  registered name hname := by
    rcases List.mem_append.1 hname with hname | hname
    · exact h.registered name hname
    · obtain rfl := List.mem_singleton.1 hname
      exact hhas

theorem Seen.length_le {seen : List String} (h : r.Seen seen) : seen.length ≤ r.length :=
  length_le_of_registered h.distinct h.registered

theorem has_of_get? {name : String} {t : DataType} (h : r.get? name = some t) :
    r.has name = true := by
  simp [Table.has, h]

/-- Every reference is resolved, with one result or another: each further target that is looked up and
found is one more registered name. -/
theorem exists_looksUp {seen : List String} (h : r.Seen seen) (t : DataType) :
    ∃ names x, r.LooksUp seen t names x := by
  generalize hleft : r.length - seen.length = left
  induction left using Nat.strongRecOn generalizing seen t with
  | ind left ih =>
      cases t with
      | reference c target bound =>
          by_cases hnew : target ∈ seen
          · cases bound with
            | false => exact ⟨_, _, .unbound⟩
            | true => exact ⟨_, _, .repeated hnew⟩
          · cases bound with
            | false => exact ⟨_, _, .unbound⟩
            | true =>
                cases hget : r.get? target with
                | none => exact ⟨_, _, .missing hnew hget⟩
                | some t =>
                    have hseen := h.snoc hnew (has_of_get? hget)
                    have hle := hseen.length_le
                    simp only [List.length_append, List.length_singleton] at hle
                    obtain ⟨names, x, hrest⟩ := ih (r.length - (seen ++ [target]).length)
                      (by simp only [List.length_append, List.length_singleton]; omega) hseen t rfl
                    exact ⟨_, _, .next hnew hget hrest⟩
      | _ => exact ⟨_, _, .found rfl⟩

/-- All targets that are looked up are registered, the last one maybe apart, and none was seen
before. -/
theorem LooksUp.length_le {seen names : List String} {t : DataType} {x : Except Fault DataType}
    (h : r.LooksUp seen t names x) (hseen : r.Seen seen) :
    seen.length + names.length ≤ r.length + 1 := by
  induction h with
  | found | unbound | repeated =>
      have hle := hseen.length_le
      simp only [List.length_nil]
      omega
  | missing =>
      have hle := hseen.length_le
      simp only [List.length_singleton]
      omega
  | next hnew hget _ ih =>
      have hrest := ih (hseen.snoc hnew (has_of_get? hget))
      simp only [List.length_append, List.length_cons] at hrest ⊢
      omega

theorem LooksUp.followWithin_eq {seen names : List String} {t : DataType}
    {x : Except Fault DataType} (h : r.LooksUp seen t names x) {fuel : Nat}
    (hfuel : names.length ≤ fuel) : DataType.followWithin r fuel seen t = x := by
  induction h generalizing fuel with
  | @found seen t ht =>
      cases t with
      | reference => cases ht
      | _ => cases fuel <;> rfl
  | unbound => cases fuel <;> simp [DataType.followWithin]
  | repeated hrepeated => cases fuel <;> simp [DataType.followWithin, hrepeated]
  | missing hnew hget => cases fuel <;> simp [DataType.followWithin, hnew, hget]
  | next hnew hget _ ih =>
      cases fuel with
      | zero => simp at hfuel
      | succ fuel =>
          have hrest := ih (Nat.le_of_succ_le_succ hfuel)
          simp [DataType.followWithin, hnew, hget, hrest]

theorem LooksUp.resolve_eq {names : List String} {t : DataType} {x : Except Fault DataType}
    (h : r.LooksUp [] t names x) : t.resolve r = x := by
  have hle := h.length_le .nil
  exact h.followWithin_eq (by simpa using hle)

/-! ## Where chains of targets come to -/

/-- Whether an entry that is no reference is the first on the chain of targets from a name on. -/
def LeadsTo (r : Registry) (target : String) (u : DataType) : Prop :=
  ∃ name, ReflTransGen r.RefersTo target name ∧ r.get? name = some u ∧ u.target? = none

inductive ComesTo (r : Registry) (target : String) : Except Fault DataType → Prop
  | found {u : DataType} (h : r.LeadsTo target u) : ComesTo r target (.ok u)
  | strays {missing : String} {referencedBy : Option String}
      (h : ReflTransGen r.RefersTo target missing) (habsent : r.has missing = false) :
      ComesTo r target (.error (.unresolvedType missing referencedBy))
  | revisits {chain : List String} (h : r.Revisits target) :
      ComesTo r target (.error (.inheritanceCycle chain))

theorem ComesTo.of_refersTo {name target : String} {x : Except Fault DataType}
    (h : r.RefersTo name target) (hx : r.ComesTo target x) : r.ComesTo name x := by
  cases hx with
  | found hleads =>
      obtain ⟨last, hreach, hlast⟩ := hleads
      exact .found ⟨last, .head h hreach, hlast⟩
  | strays hreach habsent => exact .strays (.head h hreach) habsent
  | revisits hrevisits =>
      obtain ⟨x, hreach, hcycle⟩ := hrevisits
      exact .revisits ⟨x, .head h hreach, hcycle⟩

/-- What comes of looking up targets is what their chain comes to: all that was seen before leads to
the next one. -/
theorem LooksUp.comesTo (hr : r.HoldsBound) {seen names : List String} {c : Common}
    {target : String} {x : Except Fault DataType}
    (h : r.LooksUp seen (.reference c target true) names x)
    (hseen : ∀ name ∈ seen, TransGen r.RefersTo name target) : r.ComesTo target x := by
  generalize ht : DataType.reference c target true = t at h
  induction h generalizing c target with
  | found hnone =>
      subst ht
      cases hnone
  | unbound => cases ht
  | repeated hmem =>
      cases ht
      exact .revisits ⟨_, .refl, hseen _ hmem⟩
  | missing _ hget =>
      cases ht
      exact .strays .refl (by simp [Table.has, hget])
  | @next seen names c' first u x _ hget rest ih =>
      cases ht
      cases hu : u.target? with
      | none =>
          cases rest with
          | found => exact .found ⟨first, .refl, hget, hu⟩
          | unbound | repeated | missing | next => cases hu
      | some second =>
          have href : r.RefersTo first second := refersTo_iff.2 ⟨u, hget, hu⟩
          have hbound := hr first u hget
          cases u with
          | reference c' _ bound =>
              cases hu
              refine (ih (fun name hname => ?_) hbound).of_refersTo href
              rcases List.mem_append.1 hname with hname | hname
              · exact (hseen name hname).tail href
              · obtain rfl := List.mem_singleton.1 hname
                exact .single href
          | _ => cases hu

/-! ## One outcome only -/

theorem end_unique {target x y : String} (hx : ReflTransGen r.RefersTo target x)
    (hy : ReflTransGen r.RefersTo target y) (hxend : ∀ z, ¬ r.RefersTo x z)
    (hyend : ∀ z, ¬ r.RefersTo y z) : x = y := by
  have hright : Relator.RightUnique r.RefersTo := fun _ _ _ => RefersTo.unique
  rcases ReflTransGen.total_of_right_unique hright hx hy with hxy | hyx
  · rcases hxy.cases_head with rfl | ⟨z, hz, -⟩
    · rfl
    · exact absurd hz (hxend z)
  · rcases hyx.cases_head with rfl | ⟨z, hz, -⟩
    · rfl
    · exact absurd hz (hyend z)

/-- Whatever is reached from a name that comes back comes back as well. -/
theorem revisited_of_reached {x y : String} (hcycle : TransGen r.RefersTo x x)
    (hy : ReflTransGen r.RefersTo x y) : TransGen r.RefersTo y y := by
  induction hy with
  | refl => exact hcycle
  | @tail y z _ hstep ih =>
      obtain ⟨z', hstep', hback⟩ := TransGen.head'_iff.1 ih
      obtain rfl := hstep.unique hstep'
      exact .tail' hback hstep

/-- A chain that ends at a name comes back to none. -/
theorem not_revisits_of_end {target x : String} (hx : ReflTransGen r.RefersTo target x)
    (hend : ∀ z, ¬ r.RefersTo x z) : ¬ r.Revisits target := by
  rintro ⟨y, hy, hcycle⟩
  have hright : Relator.RightUnique r.RefersTo := fun _ _ _ => RefersTo.unique
  have hback : TransGen r.RefersTo x x := by
    rcases ReflTransGen.total_of_right_unique hright hx hy with hxy | hyx
    · rcases hxy.cases_head with rfl | ⟨z, hz, -⟩
      · exact hcycle
      · exact absurd hz (hend z)
    · exact revisited_of_reached hcycle hyx
  obtain ⟨z, hz, -⟩ := TransGen.head'_iff.1 hback
  exact hend z hz

theorem not_refersTo_of_root {name : String} {u : DataType} (hget : r.get? name = some u)
    (hu : u.target? = none) (z : String) : ¬ r.RefersTo name z := by
  simp [RefersTo, hget, hu]

theorem not_refersTo_of_absent {name : String} (h : r.has name = false) (z : String) :
    ¬ r.RefersTo name z := by
  intro hz
  rw [hz.has] at h
  cases h

theorem LeadsTo.unique {target : String} {u v : DataType} (hu : r.LeadsTo target u)
    (hv : r.LeadsTo target v) : u = v := by
  obtain ⟨x, hx, hget, hnone⟩ := hu
  obtain ⟨y, hy, hget', hnone'⟩ := hv
  obtain rfl := end_unique hx hy (not_refersTo_of_root hget hnone)
    (not_refersTo_of_root hget' hnone')
  exact Option.some.inj (hget.symm.trans hget')

theorem LeadsTo.not_strays {target : String} {u : DataType} (hu : r.LeadsTo target u) :
    ¬ r.Strays target := by
  obtain ⟨x, hx, hget, hnone⟩ := hu
  rintro ⟨y, hy, habsent⟩
  obtain rfl := end_unique hx hy (not_refersTo_of_root hget hnone) (not_refersTo_of_absent habsent)
  rw [has_of_get? hget] at habsent
  cases habsent

theorem LeadsTo.not_revisits {target : String} {u : DataType} (hu : r.LeadsTo target u) :
    ¬ r.Revisits target := by
  obtain ⟨x, hx, hget, hnone⟩ := hu
  exact not_revisits_of_end hx (not_refersTo_of_root hget hnone)

theorem Strays.not_revisits {target : String} (h : r.Strays target) : ¬ r.Revisits target := by
  obtain ⟨x, hx, habsent⟩ := h
  exact not_revisits_of_end hx (not_refersTo_of_absent habsent)

section Outcome

variable {target : String} {x : Except Fault DataType}

theorem ComesTo.ok_iff (h : ComesTo r target x) (u : DataType) :
    x = .ok u ↔ r.LeadsTo target u := by
  cases h with
  | found hleads =>
      constructor
      · rintro ⟨⟩
        exact hleads
      · intro hu
        rw [hleads.unique hu]
  | strays hreach habsent => exact ⟨nofun, fun hu => absurd ⟨_, hreach, habsent⟩ hu.not_strays⟩
  | revisits hrevisits => exact ⟨nofun, fun hu => absurd hrevisits hu.not_revisits⟩

theorem ComesTo.unresolved_iff (h : ComesTo r target x) :
    (∃ missing referencedBy, x = .error (.unresolvedType missing referencedBy)) ↔
      r.Strays target := by
  cases h with
  | found hleads => exact ⟨nofun, fun hstrays => absurd hstrays hleads.not_strays⟩
  | strays hreach habsent => exact ⟨fun _ => ⟨_, hreach, habsent⟩, fun _ => ⟨_, _, rfl⟩⟩
  | revisits hrevisits => exact ⟨nofun, fun hstrays => absurd hrevisits hstrays.not_revisits⟩

theorem ComesTo.cycle_iff (h : ComesTo r target x) :
    (∃ chain, x = .error (.inheritanceCycle chain)) ↔ r.Revisits target := by
  cases h with
  | found hleads => exact ⟨nofun, fun hrevisits => absurd hrevisits hleads.not_revisits⟩
  | strays hreach habsent =>
      exact ⟨nofun, fun hrevisits => absurd hrevisits (Strays.not_revisits ⟨_, hreach, habsent⟩)⟩
  | revisits hrevisits => exact ⟨fun _ => hrevisits, fun _ => ⟨_, rfl⟩⟩

end Outcome

/-- Whatever was done to a registry, every bound reference resolves with no more than one lookup for
each registered name and one: to the first entry on the chain of its targets that is no reference, if
there is one; it is unresolved exactly if the chain leaves the registry, and a cycle exactly if the
chain comes back to one of its names. -/
theorem resolve_classified (steps : List Step) (c : Common) (target : String) :
    ∃ names x, (after steps).LooksUp [] (.reference c target true) names x ∧
      (DataType.reference c target true).resolve (after steps) = x ∧
      names.length ≤ (after steps).length + 1 ∧ ComesTo (after steps) target x ∧
      (∀ u, x = .ok u ↔ (after steps).LeadsTo target u) ∧
      ((∃ missing referencedBy, x = .error (.unresolvedType missing referencedBy)) ↔
        (after steps).Strays target) ∧
      ((∃ chain, x = .error (.inheritanceCycle chain)) ↔ (after steps).Revisits target) := by
  obtain ⟨names, x, h⟩ := exists_looksUp Seen.nil (.reference c target true)
  have hle : names.length ≤ (after steps).length + 1 := by simpa using h.length_le .nil
  have hcomes := h.comesTo (after_holdsBound steps) (by simp)
  exact ⟨names, x, h, h.resolve_eq, hle, hcomes, hcomes.ok_iff, hcomes.unresolved_iff,
    hcomes.cycle_iff⟩

end Registry

end Raml
