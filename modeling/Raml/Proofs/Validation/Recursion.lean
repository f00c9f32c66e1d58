import Raml.Proofs.Validation.Depth

/-! # Recursive types

A recursive type may come back to itself in two ways: through a property or an
item, where the value gets smaller each time, or with the same value. Settled
entries come back to themselves with the same value only through a registered
union, of which one member names the union again. Inheritance does not look
into unions, so it applies to such types too, and a check that meets one may go
on endlessly. Without them every check comes to an end, as far as the checks of
JSON schemas on the way do.
-/

namespace Raml

open DataType Relation

namespace Validation

open Registry

variable {r : Registry}

/-! ## Coming back with the same value -/

theorem PassesOn.kind_eq_union {t u : DataType} (ht : t.target? = none) (h : PassesOn r t u) :
    t.kind = .union := by
  cases h with
  | member _ => rfl
  | target _ => cases ht

/-- From a member of a union, a way that comes to a type goes through a registered one, unless it
ends at the member. -/
theorem exists_entry_of_reflTransGen (hr : r.IsSettled) {c : Common} {members : List DataType}
    {m t : DataType} (hflat : (DataType.union c members).IsFlat) (hm : m ∈ members)
    (h : ReflTransGen (PassesOn r) m t) :
    m = t ∨ ∃ name u, r.get? name = some u ∧ PassesOn r m u ∧ ReflTransGen (PassesOn r) u t := by
  rcases ReflTransGen.cases_head h with rfl | ⟨u, hmu, hut⟩
  · exact .inl rfl
  · obtain ⟨name, hname⟩ := exists_entry_of_member hr hflat hm hmu
    exact .inr ⟨name, u, hname, hmu, hut⟩

theorem exists_union_of_cycle (hr : r.IsSettled) {t : DataType} (ht : t.IsFlat)
    (h : TransGen (PassesOn r) t t) :
    ∃ name u, r.get? name = some u ∧ u.kind = .union ∧ TransGen (PassesOn r) t u ∧
      TransGen (PassesOn r) u t := by
  have hentry : ∀ {name : String} {u : DataType}, r.get? name = some u →
      TransGen (PassesOn r) t u → ReflTransGen (PassesOn r) u t →
      u.kind = .union ∧ TransGen (PassesOn r) u t := by
    intro name u hget htu hut
    have hcycle : TransGen (PassesOn r) u t := TransGen.trans_right hut h
    obtain ⟨a, hua, -⟩ := TransGen.head'_iff.1 hcycle
    exact ⟨hua.kind_eq_union (hr.target? hget), hcycle⟩
  obtain ⟨a, hta, hat⟩ := TransGen.head'_iff.1 h
  have ha : a.IsFlat := hta.isFlat hr ht
  cases hta with
  | @member c members _ hm =>
      rcases exists_entry_of_reflTransGen hr ht hm hat with hback | ⟨name, u, hget, hau, hut⟩
      · exact absurd (hback ▸ rfl) (ht _ .refl c members rfl a hm).1
      · have htu : TransGen (PassesOn r) (.union c members) u := .head (.member hm) (.single hau)
        obtain ⟨hkind, hcycle⟩ := hentry hget htu hut
        exact ⟨name, u, hget, hkind, htu, hcycle⟩
  | @target c target bound _ heffective =>
      have htarget : a.target? = none := (hr.effective_built heffective).2
      rcases ReflTransGen.cases_head hat with rfl | ⟨m, ham, hmt⟩
      · cases htarget
      · cases ham with
        | target _ => cases htarget
        | @member c' members _ hm =>
            have hta : TransGen (PassesOn r) (.reference c target bound) (.union c' members) :=
              .single (.target heffective)
            rcases exists_entry_of_reflTransGen hr ha hm hmt with rfl | ⟨name, u, hget, hmu, hut⟩
            · -- the reference itself is the member, so what it stands for is registered
              obtain ⟨name, hget⟩ := exists_entry_of_member hr ha hm (.target heffective)
              exact ⟨name, _, hget, rfl, hta, .single (.member hm)⟩
            · have htu := (hta.tail (.member hm)).tail hmu
              obtain ⟨hkind, hcycle⟩ := hentry hget htu hut
              exact ⟨name, u, hget, hkind, htu, hcycle⟩

/-! ## Coming to an end -/

/-- Whether a check comes to a JSON schema whose own check of a part of the value is endless. -/
def MeetsEndlessSchema (r : Registry) (t : DataType) (v : Value) : Prop :=
  ∃ c schema w, ReflTransGen (Asks r) (t, v) (.scalar c (.json schema), w) ∧
    checkJson c schema w = .error .endless

/-- A check that is endless at some depth has a way of as many types behind it, or is so because of
a JSON schema. -/
theorem exists_chain_of_endless (hr : r.IsSettled) {n : Nat} {t : DataType} {v : Value}
    (h : validateWithin r n t v = .error .endless) :
    MeetsEndlessSchema r t v ∨ ∃ ps, ps.length = n ∧ ((t, v) :: ps).IsChain (Asks r) := by
  induction n generalizing t v with
  | zero => exact .inr ⟨[], rfl, by simp⟩
  | succ n ih =>
      rcases validateWithin_fault h with hown | ⟨u, w, hasks, hend⟩
      · cases hown with
        | violation h => cases h
        | scalar hend =>
            obtain ⟨schema, rfl⟩ := checkScalar_endless hend
            exact .inl ⟨_, schema, v, .refl, hend⟩
        | reference hend =>
            rcases hr.effective_fault hend with ⟨hne, -⟩ | hdeclared
            · cases hne
            · exact absurd rfl hdeclared.ne_endless
      · rcases ih hend with ⟨c, schema, w', hreach, hschema⟩ | ⟨ps, hlength, hchain⟩
        · exact .inl ⟨c, schema, w', .head hasks hreach, hschema⟩
        · exact .inr ⟨(u, w) :: ps, by simp [hlength], List.isChain_cons_cons.2 ⟨hasks, hchain⟩⟩

theorem weight_le_of_asks {p q : DataType × Value} (h : TransGen (Asks r) p q) :
    q.2.weight < p.2.weight ∨ q.2 = p.2 ∧ TransGen (PassesOn r) p.1 q.1 := by
  induction h with
  | single h => exact (Asks.cases h).imp_right fun ⟨hv, hpass⟩ => ⟨hv, .single hpass⟩
  | tail _ h ih =>
      rcases Asks.cases h with hlt | ⟨hv, hpass⟩
      · rcases ih with hlt' | ⟨hv', -⟩
        · exact .inl (hlt.trans hlt')
        · exact .inl (hv' ▸ hlt)
      · rcases ih with hlt' | ⟨hv', hpass'⟩
        · exact .inl (hv ▸ hlt')
        · exact .inr ⟨hv.trans hv', hpass'.tail hpass⟩

/-- Where no entry passes a value on to itself, no type comes twice with the same value. -/
theorem nodup_of_chain {ps : List (DataType × Value)} (hchain : ps.IsChain (Asks r))
    (hacyclic : ∀ p ∈ ps, ¬ TransGen (PassesOn r) p.1 p.1) : ps.Nodup := by
  have hpairwise : ps.Pairwise (TransGen (Asks r)) :=
    List.isChain_iff_pairwise.1 (hchain.imp fun _ _ => .single)
  refine hpairwise.imp_of_mem fun {p q} hp _ hpq => ?_
  rintro rfl
  rcases weight_le_of_asks hpq with hlt | ⟨-, hpass⟩
  · exact absurd hlt (Nat.lt_irrefl _)
  · exact hacyclic p hp hpass

/-- Where no entry passes a value on to itself, a check is endless only because of a JSON schema. -/
theorem meetsEndlessSchema_of_endless (hr : r.IsSettled) (hdistinct : (Table.keys r).Nodup)
    (hacyclic : ∀ name t, r.get? name = some t → ¬ TransGen (PassesOn r) t t) {t : DataType}
    (ht : t.IsFlat) {v : Value} (h : t.validate r v = .error .endless) :
    MeetsEndlessSchema r t v := by
  have hall := (validate_endless_iff hr hdistinct ht).1 h
  rcases exists_chain_of_endless hr (hall (v.weight * (2 * r.length + 3))) with
    hschema | ⟨ps, hlength, hchain⟩
  · exact hschema
  · have hnodup : ((t, v) :: ps).Nodup := nodup_of_chain hchain fun p hp hcycle => by
      have hflat := isFlat_of_chain hr ht hchain p hp
      obtain ⟨name, u, hget, -, hpu, hup⟩ := exists_union_of_cycle hr hflat hcycle
      exact hacyclic name u hget (hup.trans hpu)
    have hle := length_le_of_asks hr ht hchain hnodup
    rw [List.length_cons] at hle
    omega

end Validation

namespace Registry

open Validation

variable {r : Registry}

/-- Once inheritance is applied, a type comes back to itself without going on to a property or an
item only through a registered union; where none does, every check comes to an end, unless it comes
to a JSON schema whose own check does not. -/
theorem validation_ends_unless_union_recurs (hr : r.WellFormed) (ha : r.Applies) :
    (∀ name t, r.applied.get? name = some t → TransGen (PassesOn r.applied) t t →
        ∃ name' u, r.applied.get? name' = some u ∧ u.kind = .union ∧
          TransGen (PassesOn r.applied) t u ∧ TransGen (PassesOn r.applied) u t) ∧
      ((∀ name t, r.applied.get? name = some t → ¬ TransGen (PassesOn r.applied) t t) →
        ∀ name t v, r.applied.get? name = some t → t.validate r.applied v = .error .endless →
          MeetsEndlessSchema r.applied t v) := by
  have hsettled := ha.isSettled hr
  refine ⟨fun name t hget hcycle => ?_, fun hacyclic name t v hget hend => ?_⟩
  · exact exists_union_of_cycle hsettled (hsettled.built hget).isFlat hcycle
  · exact meetsEndlessSchema_of_endless hsettled hr.applied.distinct hacyclic
      (hsettled.built hget).isFlat hend

/-- A type with a property that is absent or of the type again. -/
def tree : Registration :=
  .ofDeclaration "Tree" (.map (withProperty "object" "next" "nil | Tree")) rfl

theorem tree_isBuilt : ∀ a ∈ [tree], a.type.IsBuilt := by
  intro a ha
  obtain rfl := List.mem_singleton.1 ha
  exact Registration.ofDeclaration_isBuilt _ _ _

/-- Every check of the recursive type comes to an end: each round goes on to the property. -/
theorem validation_ends_unless_union_recurs_tree :
    ∃ t, (run [.add tree]).applied.get? "Tree" = some t ∧
      ¬ TransGen (PassesOn (run [.add tree]).applied) t t ∧
      ∀ v, t.validate (run [.add tree]).applied v = .error .endless →
        MeetsEndlessSchema (run [.add tree]).applied t v := by
  have hacyclic : ∀ name t, (run [.add tree]).applied.get? name = some t →
      ¬ TransGen (PassesOn (run [.add tree]).applied) t t := by
    intro name t hget hcycle
    have hobject : (run [.add tree]).applied.all (fun e => e.2.kind = .object) = true := by
      decide
    obtain ⟨k, -, hmem⟩ := Table.mem_of_get? hget
    have hkind : t.kind = .object := by simpa using List.all_eq_true.1 hobject (k, t) hmem
    have htarget : t.target? = none := (kind_ne_reference_iff t).1 (by simp [hkind])
    obtain ⟨u, hu, -⟩ := TransGen.head'_iff.1 hcycle
    have hunion := hu.kind_eq_union htarget
    rw [hkind] at hunion
    cases hunion
  have hends := (validation_ends_unless_union_recurs (run_wellFormed [.add tree] tree_isBuilt)
    (by decide +kernel)).2 hacyclic
  obtain ⟨t, hget⟩ : ∃ t, (run [.add tree]).applied.get? "Tree" = some t := ⟨_, rfl⟩
  exact ⟨t, hget, hacyclic "Tree" t hget, fun v => hends "Tree" t v hget⟩

/-- A union with itself among its members. -/
def chain : Registration := .ofDeclaration "Chain" (.text "nil | Chain") rfl

/-- Inheritance applies to the union, which passes every value on to itself: a check of a value
that its other member rejects is endless. -/
theorem not_every_cycle_goes_on :
    (run [.add chain]).Applies ∧ ∃ t, (run [.add chain]).applied.get? "Chain" = some t ∧
      TransGen (PassesOn (run [.add chain]).applied) t t ∧
      t.validate (run [.add chain]).applied (.bool true) = .error .endless := by
  have hbuilt : ∀ a ∈ [chain], a.type.IsBuilt := by
    intro a ha
    obtain rfl := List.mem_singleton.1 ha
    exact Registration.ofDeclaration_isBuilt _ _ _
  have happlies : (run [.add chain]).Applies := by decide +kernel
  have hsettled := happlies.isSettled (run_wellFormed [.add chain] hbuilt)
  obtain ⟨c, c', s, c'', hget⟩ : ∃ c c' s c'', (run [.add chain]).applied.get? "Chain" =
      some (.union c [.scalar c' s, .reference c'' "Chain" true]) := ⟨_, _, _, _, rfl⟩
  have hplain : ¬ (DataType.reference c'' "Chain" true).IsNarrowed :=
    ((hsettled.built hget).isFlat _ .refl _ _ rfl (.reference c'' "Chain" true) (by simp)).2 rfl
  have hback : (DataType.reference c'' "Chain" true).effective (run [.add chain]).applied =
      .ok (.union c [.scalar c' s, .reference c'' "Chain" true]) := by
    rw [hsettled.effective, hget]
    exact if_neg hplain
  have hverdict : ((run [.add chain]).applied.get? "Chain").map (fun t =>
      verdict (t.validate (run [.add chain]).applied (.bool true))) = some .unfinished := by
    decide +kernel
  rw [hget, Option.map_some, Option.some.injEq, verdict_eq_unfinished_iff] at hverdict
  exact ⟨happlies, _, hget, .head (.member (by simp)) (.single (.target hback)), hverdict⟩

end Registry

end Raml
