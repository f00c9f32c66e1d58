import Raml.Proofs.Validation.Admission
import Raml.Proofs.Validation.Recursion
import Raml.Proofs.Validation.Verdicts

/-! # Conformance

What it means for a value to conform to a type, said without any order of
checks: bounds are kept, parts conform, some member of a union takes the value,
and the enumeration holds it. A check goes through these conditions one by one
and stops at the first that fails. Wherever it ends in acceptance or in a
violation it decides conformance; this is put together from one rule for each
way to combine requirements, whatever the engines are.
-/

namespace Raml

open DataType

/-- The items that a value is a sequence of; texts and bytes are none. -/
inductive Value.IsSequence : Value → List Value → Prop
  | list (items : List Value) : IsSequence (.list items) items
  | tuple (items : List Value) : IsSequence (.tuple items) items

inductive Conforms [Validation.Engines] (r : Registry) : DataType → Value → Prop
  | scalar {c : Common} {s : Scalar} {v : Value} (admits : s.Admits c v) :
      Conforms r (.scalar c s) v
  | object {c : Common} {f : ObjectFacets} {properties : List (String × DataType)}
      {entries : Mapping}
      (size : WithinBounds f.minProperties f.maxProperties entries.length)
      (required : ∀ key t, (key, t) ∈ properties → t.required = true →
        (entries.field? key).isSome = true)
      (present : ∀ key t w, (key, t) ∈ properties → entries.field? key = some w → Conforms r t w)
      (declared : f.additionalProperties = false →
        ∀ k ∈ Table.keys entries, ∃ key ∈ Table.keys properties, k = .text key)
      (enum : c.Lists (.map entries)) : Conforms r (.object c f properties) (.map entries)
  | array {c : Common} {f : ArrayFacets} {items : Option DataType} {v : Value} {vs : List Value}
      (sequence : v.IsSequence vs) (size : WithinBounds f.minItems f.maxItems vs.length)
      (unique : f.uniqueItems = true → vs.Pairwise fun a b => ¬ b.Equal a)
      (each : ∀ t, items = some t → ∀ w ∈ vs, Conforms r t w)
      (enum : c.Lists v) : Conforms r (.array c f items) v
  | union {c : Common} {members : List DataType} {t : DataType} {v : Value} (member : t ∈ members)
      (conforms : Conforms r t v) (enum : c.Lists v) : Conforms r (.union c members) v
  | target {c : Common} {target : String} {bound : Bool} {t : DataType} {v : Value}
      (registered : r.get? target = some t)
      (plain : ¬ (DataType.reference c target bound).IsNarrowed) (conforms : Conforms r t v) :
      Conforms r (.reference c target bound) v
  | narrowed {c : Common} {target : String} {bound : Bool} {t u : DataType} {v : Value}
      (registered : r.get? target = some t)
      (narrowed : (DataType.reference c target bound).IsNarrowed)
      (built : build true c.name (.map (Declaration.merge t.declaration c.declaration)) = .ok u)
      (conforms : Conforms r u v) : Conforms r (.reference c target bound) v

namespace Validation

/-! ## Checks of structured types -/

section Structured

variable {check : Check} {R : DataType → Value → Prop}

theorem decides_checkProperties (hcheck : ∀ t v, Decides (check t v) (R t v)) (entries : Mapping)
    (properties : List (String × DataType)) :
    Decides (checkProperties check entries properties)
      (∀ key t, (key, t) ∈ properties →
        (t.required = true → (entries.field? key).isSome = true) ∧
          ∀ w, entries.field? key = some w → R t w) := by
  induction properties with
  | nil => exact .ok (by simp)
  | cons p rest ih =>
      obtain ⟨key, t⟩ := p
      -- whatever is checked of the first property, the others are checked after it
      have hcons : ∀ {x : Except Fault Unit},
          Decides x ((t.required = true → (entries.field? key).isSome = true) ∧
            ∀ w, entries.field? key = some w → R t w) →
          Decides (x >>= fun _ => checkProperties check entries rest)
            (∀ k u, (k, u) ∈ (key, t) :: rest →
              (u.required = true → (entries.field? k).isSome = true) ∧
                ∀ w, entries.field? k = some w → R u w) := by
        intro x hx
        refine (hx.and ih).congr ?_
        simp only [List.mem_cons, Prod.mk.injEq]
        constructor
        · rintro ⟨hfirst, hrest⟩ k u (⟨rfl, rfl⟩ | hmem)
          · exact hfirst
          · exact hrest k u hmem
        · intro h
          exact ⟨h key t (.inl ⟨rfl, rfl⟩), fun k u hmem => h k u (.inr hmem)⟩
      rw [checkProperties_cons]
      cases hw : entries.field? key with
      | some w => exact hcons ((hcheck t w).congr (by simp [hw]))
      | none => exact hcons ((Decides.require _ _ _).congr (by simp [hw]))

theorem undeclaredKeys_eq_nil_iff (properties : List (String × DataType)) (entries : Mapping) :
    undeclaredKeys properties entries = [] ↔
      ∀ k ∈ Table.keys entries, ∃ key ∈ Table.keys properties, k = .text key := by
  unfold undeclaredKeys
  rw [List.filter_eq_nil_iff]
  refine forall_congr' fun k => imp_congr_right fun _ => ?_
  cases k with
  | text key => simp [Table.has_eq_any]
  | _ => simp

theorem allDiffer_iff (vs : List Value) :
    allDiffer vs = true ↔ vs.Pairwise fun a b => ¬ b.Equal a := by
  induction vs with
  | nil => simp [allDiffer]
  | cons v rest ih => simp [allDiffer, ih, ← Value.same_iff]

theorem items?_eq_some_iff {v : Value} {vs : List Value} :
    v.items? = some vs ↔ v.IsSequence vs := by
  constructor
  · intro h
    cases v <;> cases h <;> constructor
  · intro h
    cases h <;> rfl

/-- A search among the members comes upon one that takes the value, or tells that none does. -/
theorem someAccepts_spec (hcheck : ∀ t v, Decides (check t v) (R t v)) {v : Value}
    {members : List DataType} {accepted : Bool} (h : someAccepts check v members = .ok accepted) :
    accepted = true ↔ ∃ t ∈ members, R t v := by
  induction members with
  | nil =>
      obtain rfl := Except.ok.inj h
      simp
  | cons t rest ih =>
      unfold someAccepts at h
      split at h
      · next hok =>
          have ht := (hcheck t v).accepted hok
          obtain rfl := Except.ok.inj h
          simp [ht]
      · next f hf =>
          split at h
          · next hv =>
              have ht := (hcheck t v).violated f hf hv
              simp [ih h, ht]
          · cases h

/-- A violation by one member never ends the search. -/
theorem someAccepts_ne_violation {v : Value} {members : List DataType} {f : Fault}
    (hf : isViolation f = true) : someAccepts check v members ≠ .error f := by
  induction members with
  | nil =>
      intro h
      cases h
  | cons t rest ih =>
      unfold someAccepts
      split
      · intro h
        cases h
      · split
        · exact ih
        · next hother =>
            intro h
            obtain rfl := Except.error.inj h
            exact hother hf

theorem decides_checkObject (hcheck : ∀ t v, Decides (check t v) (R t v)) (c : Common)
    (f : ObjectFacets) (properties : List (String × DataType)) (entries : Mapping) :
    Decides (checkObject check c f properties (.map entries))
      (WithinBounds f.minProperties f.maxProperties entries.length ∧
        (∀ key t, (key, t) ∈ properties →
          (t.required = true → (entries.field? key).isSome = true) ∧
            ∀ w, entries.field? key = some w → R t w) ∧
        (f.additionalProperties = false →
          ∀ k ∈ Table.keys entries, ∃ key ∈ Table.keys properties, k = .text key) ∧
        c.Lists (.map entries)) := by
  have hclosed := (Decides.require c.name
    (f.additionalProperties || (undeclaredKeys properties entries).isEmpty)
    (.noProperties (undeclaredKeys properties entries))).and (.requireMember c (.map entries))
  have hparts := (decides_checkProperties hcheck entries properties).and hclosed
  refine (hparts.within c.name f.minProperties f.maxProperties entries.length .minProperties
    .maxProperties).congr ?_
  rw [Bool.or_eq_true, List.isEmpty_iff, undeclaredKeys_eq_nil_iff]
  cases f.additionalProperties <;> simp

theorem decides_checkItems (hcheck : ∀ t v, Decides (check t v) (R t v)) (items : Option DataType)
    (vs : List Value) :
    Decides (checkItems check items vs) (∀ t, items = some t → ∀ w ∈ vs, R t w) := by
  cases items with
  | none => exact .ok (by simp)
  | some t => exact (Decides.forM (hcheck t) vs).congr (by simp)

theorem decides_checkArray (hcheck : ∀ t v, Decides (check t v) (R t v)) (c : Common)
    (f : ArrayFacets) (items : Option DataType) {v : Value} {vs : List Value}
    (hvs : v.items? = some vs) :
    Decides (checkArray check c f items v)
      (WithinBounds f.minItems f.maxItems vs.length ∧
        (f.uniqueItems = true → vs.Pairwise fun a b => ¬ b.Equal a) ∧
        (∀ t, items = some t → ∀ w ∈ vs, R t w) ∧ c.Lists v) := by
  have hitems := (decides_checkItems hcheck items vs).and (.requireMember c v)
  have hunique := (Decides.require c.name (!f.uniqueItems || allDiffer vs) .uniqueItems).and hitems
  simp only [checkArray, hvs]
  refine (hunique.within c.name f.minItems f.maxItems vs.length .minItems .maxItems).congr ?_
  rw [Bool.or_eq_true, allDiffer_iff]
  cases f.uniqueItems <;> simp

theorem decides_checkUnion (hcheck : ∀ t v, Decides (check t v) (R t v)) (c : Common)
    (members : List DataType) (v : Value) :
    Decides (checkUnion check c members v) ((∃ t ∈ members, R t v) ∧ c.Lists v) := by
  unfold checkUnion
  cases h : someAccepts check v members with
  | ok accepted =>
      have haccepted := Decides.require c.name accepted (.someMember (members.map DataType.name))
      have hmember := haccepted.and (.requireMember c v)
      exact hmember.congr (by rw [someAccepts_spec hcheck h])
  | error f =>
      refine .fault ?_
      cases hf : isViolation f with
      | false => rfl
      | true => exact absurd h (someAccepts_ne_violation hf)

end Structured

/-! ## Checks of all types -/

variable [Engines] {r : Registry}

theorem decides_reference (hr : r.IsSettled) {check : Check}
    (hcheck : ∀ t v, Decides (check t v) (Conforms r t v)) (c : Common) (target : String)
    (bound : Bool) (v : Value) :
    Decides ((DataType.reference c target bound).effective r >>= fun t => check t v)
      (Conforms r (.reference c target bound) v) := by
  cases ht : (DataType.reference c target bound).effective r with
  | error f =>
      refine .fault ?_
      rcases hr.effective_fault ht with ⟨rfl, -⟩ | hf
      · rfl
      · cases f with
        | violation => exact absurd rfl hf.ne_validation
        | _ => rfl
  | ok t =>
      refine (hcheck t v).congr ?_
      obtain ⟨-, u, hget, hwhat⟩ := hr.effective_cases ht
      constructor
      · intro h
        rcases hwhat with ⟨hplain, rfl⟩ | ⟨hnarrowed, hbuilt⟩
        · exact .target hget hplain h
        · exact .narrowed hget hnarrowed hbuilt h
      · intro h
        cases h with
        | target hget' hplain h =>
            obtain rfl := Option.some.inj (hget.symm.trans hget')
            rcases hwhat with ⟨-, rfl⟩ | ⟨hnarrowed, -⟩
            · exact h
            · exact absurd hnarrowed hplain
        | narrowed hget' hnarrowed hbuilt' h =>
            obtain rfl := Option.some.inj (hget.symm.trans hget')
            rcases hwhat with ⟨hplain, -⟩ | ⟨-, hbuilt⟩
            · exact absurd hnarrowed hplain
            · obtain rfl := Except.ok.inj (hbuilt.symm.trans hbuilt')
              exact h

theorem decides_validateWithin (hr : r.IsSettled) (fuel : Nat) :
    ∀ t v, Decides (validateWithin r fuel t v) (Conforms r t v) := by
  -- by the levels left, for all types and values at once: what a level asks for is one level down
  induction fuel with
  | zero => exact fun t v => .fault rfl
  | succ fuel ih =>
      intro t v
      cases t with
      | scalar c s =>
          refine (decides_checkScalar c s v).congr ⟨.scalar, fun h => ?_⟩
          cases h with
          | scalar hadmits => exact hadmits
      | object c f properties =>
          cases v with
          | map entries =>
              refine (decides_checkObject ih c f properties entries).congr ?_
              constructor
              · rintro ⟨hsize, hproperties, hdeclared, henum⟩
                exact .object hsize (fun key t hmem => (hproperties key t hmem).1)
                  (fun key t w hmem => (hproperties key t hmem).2 w) hdeclared henum
              · intro h
                cases h with
                | object hsize hrequired hpresent hdeclared henum =>
                    exact ⟨hsize, fun key t hmem => ⟨hrequired key t hmem,
                      fun w => hpresent key t w hmem⟩, hdeclared, henum⟩
          | _ => exact .refused _ fun h => by cases h
      | array c f items =>
          cases hvs : v.items? with
          | some vs =>
              refine (decides_checkArray ih c f items hvs).congr ?_
              constructor
              · rintro ⟨hsize, hunique, heach, henum⟩
                exact .array (items?_eq_some_iff.1 hvs) hsize hunique heach henum
              · intro h
                cases h with
                | array hsequence hsize hunique heach henum =>
                    have hvs' := items?_eq_some_iff.2 hsequence
                    obtain rfl := Option.some.inj (hvs.symm.trans hvs')
                    exact ⟨hsize, hunique, heach, henum⟩
          | none =>
              have hrefused : validateWithin r (fuel + 1) (.array c f items) v =
                  .error (.violation c.name .isArray) := by
                simp only [validateWithin, checkArray, hvs]
              rw [hrefused]
              refine .refused _ fun h => ?_
              cases h with
              | array hsequence =>
                  rw [items?_eq_some_iff.2 hsequence] at hvs
                  cases hvs
      | union c members =>
          refine (decides_checkUnion ih c members v).congr ?_
          constructor
          · rintro ⟨⟨t, hmem, hconforms⟩, henum⟩
            exact .union hmem hconforms henum
          · intro h
            cases h with
            | union hmem hconforms henum => exact ⟨⟨_, hmem, hconforms⟩, henum⟩
      | reference c target bound => exact decides_reference hr ih c target bound v

end Validation

namespace Registry

variable {r : Registry}

end Registry

end Raml
