import Raml.Proofs.Validation.Recursion

/-! # Names met by a check

Once inheritance is applied, no chain of references comes back, and every
reference nested in a registered type has a registered target. A check may
still come to a name that it cannot look up: inheritance does not look at the
facets beside a nested reference, which become a type of their own only when a
value is checked, and a reference that was built without a registry is bound by
being registered itself, not by what it is nested in. There are no other ways.
-/

namespace Raml

open DataType Relation

namespace Validation

open Registry

variable {r : Registry}

/-- Whether a check of one type may come to another: it is nested in it, or what a reference stands
for. -/
def Consults (r : Registry) (t u : DataType) : Prop :=
  t.Nests u ∨ t.target?.isSome ∧ t.effective r = .ok u

theorem consults_of_asks {t u : DataType} {v w : Value}
    (h : ReflTransGen (Asks r) (t, v) (u, w)) : ReflTransGen (Consults r) t u := by
  have hlift : ∀ p q : DataType × Value, ReflTransGen (Asks r) p q →
      ReflTransGen (Consults r) p.1 q.1 := by
    intro p q hpq
    induction hpq with
    | refl => exact .refl
    | tail _ hstep ih => exact ih.tail (Asks.nests_or_effective hstep)
  exact hlift _ _ h

/-- A check that fails has come to a type whose own check fails so. -/
theorem exists_ownFault {n : Nat} {t : DataType} {v : Value} {f : Fault}
    (h : validateWithin r n t v = .error f) (hf : f ≠ .endless) :
    ∃ u w, ReflTransGen (Asks r) (t, v) (u, w) ∧ OwnFault r u w f := by
  induction n generalizing t v with
  | zero => exact absurd (Except.error.inj h).symm hf
  | succ n ih =>
      rcases validateWithin_fault h with hown | ⟨u, w, hasks, herror⟩
      · exact ⟨t, v, .refl, hown⟩
      · obtain ⟨u', w', hreach, hown⟩ := ih herror
        exact ⟨u', w', .head hasks hreach, hown⟩

/-- A type of which the check is part: it is registered, or built from the facets beside a
reference that is consulted. -/
def IsBase (r : Registry) (t b : DataType) : Prop :=
  (∃ name, r.get? name = some b) ∨
    ∃ a, ReflTransGen (Consults r) t a ∧ a.IsNarrowed ∧ a.target?.isSome ∧ a.effective r = .ok b

theorem IsBase.target? (hr : r.IsSettled) {t b : DataType} (h : IsBase r t b) :
    b.target? = none := by
  rcases h with ⟨name, hget⟩ | ⟨a, -, -, htarget, heffective⟩
  · exact hr.target? hget
  · cases a with
    | reference c target bound => exact (hr.effective_built heffective).2
    | _ => cases htarget

theorem exists_base (hr : r.IsSettled) {name : String} {t u : DataType} (ht : r.get? name = some t)
    (h : ReflTransGen (Consults r) t u) : ∃ b, IsBase r t b ∧ ReflTransGen Nests b u := by
  induction h with
  | refl => exact ⟨t, .inl ⟨name, ht⟩, .refl⟩
  | @tail a u ha hstep ih =>
      obtain ⟨b, hb, hba⟩ := ih
      rcases hstep with hnests | ⟨htarget, heffective⟩
      · exact ⟨b, hb, hba.tail hnests⟩
      · cases a with
        | reference c target bound =>
            obtain ⟨-, u', hget, ⟨-, rfl⟩ | ⟨hnarrowed, -⟩⟩ := hr.effective_cases heffective
            · exact ⟨u, .inl ⟨target, hget⟩, .refl⟩
            · exact ⟨u, .inr ⟨_, ha, hnarrowed, htarget, heffective⟩, .refl⟩
        | _ => cases htarget

end Validation

namespace Registry

open Validation

variable {r : Registry}

/-- Once inheritance is applied, the check of a registered type meets no cycle of references, and it
meets a name that it cannot look up in two ways only: by a reference that is not bound, or by one
that the facets beside another reference hold. -/
theorem unresolved_only_if_unbound_or_narrowed (hr : r.WellFormed) (ha : r.Applies) {name : String}
    {t : DataType} (hget : r.applied.get? name = some t) {v : Value} {f : Fault}
    (h : t.validate r.applied v = .error f) :
    f.family ≠ .inheritanceCycle ∧
      (f.family = .unresolvedType →
        ∃ c target bound, ReflTransGen (Consults r.applied) t (.reference c target bound) ∧
          f = .unresolvedType target (some c.name) ∧
          (bound = false ∨
            r.has target = false ∧ ∃ a b, ReflTransGen (Consults r.applied) t a ∧
              a.IsNarrowed ∧ a.effective r.applied = .ok b ∧
              TransGen Nests b (.reference c target bound))) := by
  have hsettled := ha.isSettled hr
  by_cases hend : f = .endless
  · subst hend
    simp [Fault.family]
  obtain ⟨u, w, hreach, hown⟩ := exists_ownFault h hend
  cases hown with
  | violation hv => simp [family_of_isViolation hv]
  | scalar hs =>
      rcases checkScalar_family hs with hf | hf | hf <;> simp [hf]
  | @reference c target bound _ _ he =>
      rcases hsettled.effective_fault he with ⟨rfl, hwhy⟩ | hdeclared
      · refine ⟨by simp [Fault.family], fun _ => ?_⟩
        have hconsults := consults_of_asks hreach
        refine ⟨c, target, bound, hconsults, rfl, hwhy.imp_right fun habsent => ?_⟩
        rw [(applied_refines hr).has] at habsent
        refine ⟨habsent, ?_⟩
        obtain ⟨b, hb, hnests⟩ := exists_base hsettled hget hconsults
        have hinside : TransGen Nests b (.reference c target bound) := by
          rcases reflTransGen_iff_eq_or_transGen.1 hnests with heq | hinside
          · have hnone := hb.target? hsettled
            rw [← heq] at hnone
            cases hnone
          · exact hinside
        rcases hb with ⟨name', hentry⟩ | ⟨a, hconsulted, hnarrowed, -, heffective⟩
        · -- inheritance has looked at every reference nested in an entry
          have hs := (get?_applied_iff hr ha).1 hentry
          exact absurd ⟨_, hinside, rfl, habsent⟩ (((applies_iff hr).1 ha).2 name' b target hs)
        · exact ⟨a, b, hconsulted, hnarrowed, heffective, hinside⟩
      · exact ⟨hdeclared.ne_inheritanceCycle, fun hf => absurd hf hdeclared.ne_unresolvedType⟩

/-- The name that a check cannot look up, and what refers to it. -/
def missing? : Except Fault Unit → Option (String × Option String)
  | .error (.unresolvedType target user) => some (target, user)
  | _ => none

theorem missing?_eq_some_iff {x : Except Fault Unit} {target : String} {user : Option String} :
    missing? x = some (target, user) ↔ x = .error (.unresolvedType target user) := by
  cases x with
  | ok u => simp [missing?]
  | error f => cases f <;> simp [missing?]

/-- A type whose property is of a type that is registered later; it was built without a
registry. -/
def trip : Registration where
  type := (DataType.build false "Trip"
    (.map (withProperty "object" "by" "Vehicle"))).toOption.get rfl
  key := none

/-- A type with a property whose type is narrowed by a property of an unknown type. -/
def escort : Registration :=
  .ofDeclaration "Escort" (.map
    [(.text "type", .text "object"),
      (.text "properties", .map [(.text "by", .map (withProperty "Vehicle" "driver" "Person"))])])
    rfl

/-- Where every name is registered, the reference that is met is not bound. -/
theorem unresolved_only_if_unbound_or_narrowed_trip :
    ∃ t c, (run [.add trip, .add vehicle]).applied.get? "Trip" = some t ∧
      ReflTransGen (Consults (run [.add trip, .add vehicle]).applied) t
        (.reference c "Vehicle" false) := by
  have hbuilt : ∀ a ∈ [trip, vehicle], a.type.IsBuilt := by
    intro a ha
    rcases List.mem_pair.1 ha with rfl | rfl
    · have hok : DataType.build false "Trip" (.map (withProperty "object" "by" "Vehicle")) =
          .ok trip.type := Except.eq_ok_get rfl
      exact .build hok
    · exact Registration.ofDeclaration_isBuilt _ _ _
  have hfault : ((run [.add trip, .add vehicle]).applied.get? "Trip").map (fun t =>
      missing? (t.validate (run [.add trip, .add vehicle]).applied
        (.map [(.text "by", .map [])]))) = some (some ("Vehicle", some "by")) := by
    decide
  obtain ⟨t, hget, hfault⟩ := Option.map_eq_some_iff.1 hfault
  obtain ⟨-, hmet⟩ := unresolved_only_if_unbound_or_narrowed
    (run_wellFormed [.add trip, .add vehicle] hbuilt) (by decide) hget
    (missing?_eq_some_iff.1 hfault)
  obtain ⟨c, target, bound, hmet, hsame, hwhy⟩ := hmet rfl
  obtain ⟨rfl, -⟩ := Fault.unresolvedType.inj hsame
  rcases hwhy with rfl | ⟨habsent, -⟩
  · exact ⟨t, c, hget, hmet⟩
  · cases habsent

/-- Inheritance applies although a check of a registered type comes to an unknown name: it stands
among the facets beside a reference. -/
theorem not_always_resolved :
    ¬ ∀ r : Registry, r.WellFormed → r.Applies →
      ∀ (name : String) (t : DataType) (v : Value) (f : Fault), r.applied.get? name = some t →
        t.validate r.applied v = .error f →
          f.family ≠ .unresolvedType ∧ f.family ≠ .inheritanceCycle := by
  intro hclaim
  have hbuilt : ∀ a ∈ [escort, vehicle], a.type.IsBuilt := by
    intro a ha
    rcases List.mem_pair.1 ha with rfl | rfl <;> exact Registration.ofDeclaration_isBuilt _ _ _
  have hfault : ((run [.add escort, .add vehicle]).applied.get? "Escort").map (fun t =>
      missing? (t.validate (run [.add escort, .add vehicle]).applied
        (.map [(.text "by", .map [(.text "seats", .int 4), (.text "driver", .text "Ann")])]))) =
      some (some ("Person", some "driver")) := by
    decide
  obtain ⟨t, hget, hfault⟩ := Option.map_eq_some_iff.1 hfault
  have hfamily := hclaim _ (run_wellFormed [.add escort, .add vehicle] hbuilt) (by decide)
    "Escort" t _ _ hget (missing?_eq_some_iff.1 hfault)
  exact hfamily.1 rfl

end Registry

end Raml
