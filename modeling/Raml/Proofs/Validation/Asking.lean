import Raml.Proofs.Registry.Populating
import Raml.Proofs.Validation.ScalarFaults
import Raml.Validation.DataType

/-! # What a check asks of nested types

To check a value, an object asks its properties about the values under their
keys, an array asks its item type about the items, a union asks its members
about the value itself, and a reference asks the type that it stands for. The
first two go on to a smaller value and the others pass the same value on. A
check fails for a reason of its own or because a check that it asked for does.
-/

namespace Raml

open DataType Relation

/-! ## What references stand for -/

/-- Whether a constraining facet stands beside a reference. -/
def DataType.IsNarrowed (t : DataType) : Prop :=
  (t.declaration.any fun e => isConstraining e.1) = true

instance (t : DataType) : Decidable t.IsNarrowed := by
  unfold DataType.IsNarrowed
  infer_instance

namespace Registry

variable {r : Registry}

/-- Whether every entry is built and none is a reference. -/
structure IsSettled (r : Registry) : Prop where
  built : ∀ {name : String} {t : DataType}, r.get? name = some t → t.IsBuilt
  target? : ∀ {name : String} {t : DataType}, r.get? name = some t → t.target? = none

theorem Applies.isSettled (hr : r.WellFormed) (h : r.Applies) : r.applied.IsSettled where
  built hget := (((get?_applied_iff hr h).1 hget).built hr).1
  target? hget := ((get?_applied_iff hr h).1 hget).target?_eq_none hr

/-- A bound reference to a settled entry is resolved by one lookup. -/
theorem IsSettled.resolve (hr : r.IsSettled) (c : Common) (target : String) :
    (DataType.reference c target true).resolve r =
      match r.get? target with
      | none => .error (.unresolvedType target (some c.name))
      | some u => .ok u := by
  cases hget : r.get? target with
  | none => simp [DataType.resolve, followWithin, hget]
  | some u =>
      have hu := hr.target? hget
      cases u with
      | reference => cases hu
      | _ => simp [DataType.resolve, followWithin, hget]

/-- A reference stands for its target, or for a type built from its target's declaration and its
own if that constrains anything. -/
theorem IsSettled.effective (hr : r.IsSettled) (c : Common) (target : String) :
    (DataType.reference c target true).effective r =
      match r.get? target with
      | none => .error (.unresolvedType target (some c.name))
      | some u =>
          if (DataType.reference c target true).IsNarrowed then
            build true c.name (.map (Declaration.merge u.declaration c.declaration))
          else .ok u := by
  simp only [DataType.effective, hr.resolve]
  cases r.get? target with
  | none => rfl
  | some u => rfl

theorem effective_unbound (c : Common) (target : String) :
    (DataType.reference c target false).effective r =
      .error (.unresolvedType target (some c.name)) := by
  simp [DataType.effective, DataType.resolve, followWithin, bind, Except.bind]

theorem IsSettled.effective_cases (hr : r.IsSettled) {c : Common} {target : String} {bound : Bool}
    {t : DataType} (h : (DataType.reference c target bound).effective r = .ok t) :
    bound = true ∧ ∃ u, r.get? target = some u ∧
      ((¬ (DataType.reference c target bound).IsNarrowed ∧ t = u) ∨
        (DataType.reference c target bound).IsNarrowed ∧
          build true c.name (.map (Declaration.merge u.declaration c.declaration)) = .ok t) := by
  cases bound with
  | false =>
      rw [effective_unbound] at h
      cases h
  | true =>
      rw [hr.effective] at h
      cases hget : r.get? target with
      | none =>
          rw [hget] at h
          cases h
      | some u =>
          rw [hget] at h
          dsimp only at h
          split at h
          · next hnarrowed => exact ⟨rfl, u, rfl, .inr ⟨hnarrowed, h⟩⟩
          · next hplain => exact ⟨rfl, u, rfl, .inl ⟨hplain, (Except.ok.inj h).symm⟩⟩

/-- A reference stands for nothing because it is not bound, because its target is not registered, or
because its facets cannot be read. -/
theorem IsSettled.effective_fault (hr : r.IsSettled) {c : Common} {target : String} {bound : Bool}
    {f : Fault} (h : (DataType.reference c target bound).effective r = .error f) :
    f = .unresolvedType target (some c.name) ∧ (bound = false ∨ r.has target = false) ∨
      f.OfDeclaration := by
  cases bound with
  | false =>
      rw [effective_unbound] at h
      exact .inl ⟨(Except.error.inj h).symm, .inl rfl⟩
  | true =>
      rw [hr.effective] at h
      cases hget : r.get? target with
      | none =>
          rw [hget] at h
          exact .inl ⟨(Except.error.inj h).symm, .inr (by simp [Table.has, hget])⟩
      | some u =>
          rw [hget] at h
          dsimp only at h
          split at h
          · exact .inr (build_fault h)
          · cases h

theorem IsSettled.effective_built (hr : r.IsSettled) {c : Common} {target : String} {bound : Bool}
    {t : DataType} (h : (DataType.reference c target bound).effective r = .ok t) :
    t.IsBuilt ∧ t.target? = none := by
  obtain ⟨-, u, hget, ⟨-, rfl⟩ | ⟨-, hbuild⟩⟩ := hr.effective_cases h
  · exact ⟨hr.built hget, hr.target? hget⟩
  · have hu : u.kind ≠ .reference := (kind_ne_reference_iff u).2 (hr.target? hget)
    have hm : inheriting target u (.reference c target bound) = .ok (t.withParent target) :=
      Except.map_eq_ok_iff.2 ⟨t, hbuild, rfl⟩
    have hkind := inheriting_kind (hr.built hget).isFaithful hu hm
    rw [kind_withParent] at hkind
    exact ⟨.build hbuild, (kind_ne_reference_iff t).1 (hkind ▸ hu)⟩

end Registry

namespace Validation

open Registry

variable {r : Registry}

/-! ## Asking -/

/-- Whether checking a value of a type asks for the check of another value of another type. -/
inductive Asks (r : Registry) : DataType × Value → DataType × Value → Prop
  | property {c : Common} {f : ObjectFacets} {properties : List (String × DataType)}
      {entries : Mapping} {key : String} {t : DataType} {w : Value} (ht : (key, t) ∈ properties)
      (hw : entries.field? key = some w) :
      Asks r (.object c f properties, .map entries) (t, w)
  | item {c : Common} {f : ArrayFacets} {t : DataType} {v w : Value} {items : List Value}
      (hv : v.items? = some items) (hw : w ∈ items) :
      Asks r (.array c f (some t), v) (t, w)
  | member {c : Common} {members : List DataType} {t : DataType} {v : Value} (ht : t ∈ members) :
      Asks r (.union c members, v) (t, v)
  | target {c : Common} {target : String} {bound : Bool} {t : DataType} {v : Value}
      (ht : (DataType.reference c target bound).effective r = .ok t) :
      Asks r (.reference c target bound, v) (t, v)

/-- Whether a type passes a value that it is asked about on to another one. -/
inductive PassesOn (r : Registry) : DataType → DataType → Prop
  | member {c : Common} {members : List DataType} {t : DataType} (ht : t ∈ members) :
      PassesOn r (.union c members) t
  | target {c : Common} {target : String} {bound : Bool} {t : DataType}
      (ht : (DataType.reference c target bound).effective r = .ok t) :
      PassesOn r (.reference c target bound) t

theorem weight_lt_of_items {v w : Value} {items : List Value} (hv : v.items? = some items)
    (hw : w ∈ items) : w.weight < v.weight := by
  have hle : ∀ vs : List Value, w ∈ vs → w.weight ≤ Value.weightItems vs := by
    intro vs hm
    induction vs with
    | nil => cases hm
    | cons a rest ih =>
        simp only [Value.weightItems]
        rcases List.mem_cons.1 hm with rfl | hm
        · omega
        · have := ih hm
          omega
  have hitems := hle items hw
  cases v with
  | list _ | tuple _ =>
      cases hv
      simp only [Value.weight]
      omega
  | _ => cases hv

theorem Asks.cases {t u : DataType} {v w : Value} (h : Asks r (t, v) (u, w)) :
    w.weight < v.weight ∨ w = v ∧ PassesOn r t u := by
  cases h with
  | property ht hw => exact .inl (Value.weight_lt_of_field? hw)
  | item hv hw => exact .inl (weight_lt_of_items hv hw)
  | member ht => exact .inr ⟨rfl, .member ht⟩
  | target ht => exact .inr ⟨rfl, .target ht⟩

theorem Asks.nests_or_effective {t u : DataType} {v w : Value} (h : Asks r (t, v) (u, w)) :
    t.Nests u ∨ t.target?.isSome ∧ t.effective r = .ok u := by
  cases h with
  | property ht hw => exact .inl (List.mem_map.2 ⟨_, ht, rfl⟩)
  | item hv hw => exact .inl (by simp [Nests, nested])
  | member ht => exact .inl ht
  | target ht => exact .inr ⟨rfl, ht⟩

/-! ## Where a fault comes from -/

theorem require_fault {subject : String} {holds : Bool} {c : Constraint} {f : Fault}
    (h : require subject holds c = .error f) : isViolation f = true := by
  unfold require at h
  split at h
  · cases h
  · cases h
    rfl

theorem requireBound_fault {α : Type} {subject : String} {bound : Option α} {keeps : α → Bool}
    {c : α → Constraint} {f : Fault} (h : requireBound subject bound keeps c = .error f) :
    isViolation f = true := by
  unfold requireBound at h
  split at h
  · cases h
  · exact require_fault h

theorem checkProperties_cons (check : Check) (entries : Mapping) (key : String) (t : DataType)
    (rest : List (String × DataType)) :
    checkProperties check entries ((key, t) :: rest) =
      (match entries.field? key with
        | some w => check t w
        | none => require key (!t.required) .requiredProperty) >>= fun _ =>
          checkProperties check entries rest := by
  rw [checkProperties]
  cases entries.field? key <;> rfl

theorem checkProperties_fault {check : Check} {entries : Mapping}
    {properties : List (String × DataType)} {f : Fault}
    (h : checkProperties check entries properties = .error f) :
    isViolation f = true ∨
      ∃ key t w, (key, t) ∈ properties ∧ entries.field? key = some w ∧ check t w = .error f := by
  induction properties with
  | nil => cases h
  | cons p rest ih =>
      obtain ⟨key, t⟩ := p
      rw [checkProperties_cons] at h
      rcases Except.bind_eq_error_iff.1 h with h | ⟨-, -, h⟩
      · cases hw : entries.field? key with
        | none =>
            rw [hw] at h
            exact .inl (require_fault h)
        | some w =>
            rw [hw] at h
            exact .inr ⟨key, t, w, by simp, hw, h⟩
      · rcases ih h with hv | ⟨key', t', w, hmem, hw, hf⟩
        · exact .inl hv
        · exact .inr ⟨key', t', w, List.mem_cons_of_mem _ hmem, hw, hf⟩

theorem forM_fault {α : Type} {check : α → Except Fault Unit} {xs : List α} {f : Fault}
    (h : xs.forM check = .error f) : ∃ a ∈ xs, check a = .error f := by
  induction xs with
  | nil => cases h
  | cons a rest ih =>
      rcases Except.bind_eq_error_iff.1 h with h | ⟨-, -, h⟩
      · exact ⟨a, by simp, h⟩
      · obtain ⟨b, hb, hf⟩ := ih h
        exact ⟨b, List.mem_cons_of_mem _ hb, hf⟩

theorem someAccepts_fault {check : Check} {v : Value} {members : List DataType} {f : Fault}
    (h : someAccepts check v members = .error f) : ∃ t ∈ members, check t v = .error f := by
  induction members with
  | nil => cases h
  | cons t rest ih =>
      unfold someAccepts at h
      split at h
      · cases h
      · next e he =>
          split at h
          · obtain ⟨u, hu, hf⟩ := ih h
            exact ⟨u, List.mem_cons_of_mem _ hu, hf⟩
          · cases h
            exact ⟨t, by simp, he⟩

/-- What a check fails with for a reason of its own. -/
inductive OwnFault [Engines] (r : Registry) : DataType → Value → Fault → Prop
  | violation {t : DataType} {v : Value} {f : Fault} (h : isViolation f = true) :
      OwnFault r t v f
  | scalar {c : Common} {s : Scalar} {v : Value} {f : Fault} (h : checkScalar c s v = .error f) :
      OwnFault r (.scalar c s) v f
  | reference {c : Common} {target : String} {bound : Bool} {v : Value} {f : Fault}
      (h : (DataType.reference c target bound).effective r = .error f) :
      OwnFault r (.reference c target bound) v f

/-- A check fails for a reason of its own, or with the fault of a check that it asked for. -/
theorem validateWithin_fault [Engines] {fuel : Nat} {t : DataType} {v : Value} {f : Fault}
    (h : validateWithin r (fuel + 1) t v = .error f) :
    OwnFault r t v f ∨ ∃ u w, Asks r (t, v) (u, w) ∧ validateWithin r fuel u w = .error f := by
  cases t with
  | scalar c s => exact .inl (.scalar h)
  | object c f properties =>
      cases v with
      | map entries =>
          -- one step of the check after the other; the properties alone ask for further checks
          rcases Except.bind_eq_error_iff.1 h with h | ⟨-, -, h⟩
          · exact .inl (.violation (requireBound_fault h))
          rcases Except.bind_eq_error_iff.1 h with h | ⟨-, -, h⟩
          · exact .inl (.violation (requireBound_fault h))
          rcases Except.bind_eq_error_iff.1 h with h | ⟨-, -, h⟩
          · rcases checkProperties_fault h with hv | ⟨key, t, w, hmem, hw, hf⟩
            · exact .inl (.violation hv)
            · exact .inr ⟨t, w, .property hmem hw, hf⟩
          rcases Except.bind_eq_error_iff.1 h with h | ⟨-, -, h⟩
          · exact .inl (.violation (require_fault h))
          · exact .inl (.violation (requireBound_fault h))
      | _ =>
          cases h
          exact .inl (.violation rfl)
  | array c f items =>
      simp only [validateWithin, checkArray] at h
      cases hv : v.items? with
      | none =>
          rw [hv] at h
          cases h
          exact .inl (.violation rfl)
      | some vs =>
          rw [hv] at h
          rcases Except.bind_eq_error_iff.1 h with h | ⟨-, -, h⟩
          · exact .inl (.violation (requireBound_fault h))
          rcases Except.bind_eq_error_iff.1 h with h | ⟨-, -, h⟩
          · exact .inl (.violation (requireBound_fault h))
          rcases Except.bind_eq_error_iff.1 h with h | ⟨-, -, h⟩
          · exact .inl (.violation (require_fault h))
          rcases Except.bind_eq_error_iff.1 h with h | ⟨-, -, h⟩
          · cases items with
            | none => cases h
            | some t =>
                obtain ⟨w, hw, hf⟩ := forM_fault h
                exact .inr ⟨t, w, .item hv hw, hf⟩
          · exact .inl (.violation (requireBound_fault h))
  | union c members =>
      rcases Except.bind_eq_error_iff.1 h with h | ⟨accepted, -, h⟩
      · obtain ⟨t, ht, hf⟩ := someAccepts_fault h
        exact .inr ⟨t, v, .member ht, hf⟩
      rcases Except.bind_eq_error_iff.1 h with h | ⟨-, -, h⟩
      · exact .inl (.violation (require_fault h))
      · exact .inl (.violation (requireBound_fault h))
  | reference c target bound =>
      rcases Except.bind_eq_error_iff.1 h with h | ⟨t, ht, h⟩
      · exact .inl (.reference h)
      · exact .inr ⟨t, v, .target ht, h⟩

end Validation

end Raml
