import Raml.Proofs.Validation.Asking

/-! # Verdicts

What matters of a check is its verdict: the value is accepted or rejected, it
cannot be checked, or the check has not come to an end. A check bears out
another one if it comes to the same verdict wherever the other comes to an end.
A check is made of the checks that it asks for, so it is borne out where they
are: by a deeper check of the same type, and by a check of any type that asks
for as much.
-/

namespace Raml

open DataType

namespace Validation

inductive Verdict
  | accepts
  | rejects
  | unfinished
  | fails
deriving DecidableEq

def verdict (x : Except Fault Unit) : Verdict :=
  match x with
  | .ok _ => .accepts
  | .error f =>
      if f matches .endless then .unfinished else if isViolation f then .rejects else .fails

/-- Whether `y` comes to the verdict of `x` if that has one. -/
def BornOut (x y : Except Fault Unit) : Prop := verdict x = .unfinished ∨ verdict y = verdict x

section Verdicts

variable {x y : Except Fault Unit}

@[simp] theorem verdict_eq_accepts_iff : verdict x = .accepts ↔ x = .ok () := by
  cases x with
  | ok u => simp [verdict]
  | error f =>
      cases f <;> simp [verdict, isViolation]

@[simp] theorem verdict_eq_unfinished_iff : verdict x = .unfinished ↔ x = .error .endless := by
  cases x with
  | ok u => simp [verdict]
  | error f => cases f <;> simp [verdict, isViolation]

theorem verdict_eq_rejects_iff :
    verdict x = .rejects ↔ ∃ f, x = .error f ∧ isViolation f = true := by
  cases x with
  | ok u => simp [verdict]
  | error f => cases f <;> simp [verdict, isViolation]

theorem BornOut.refl (x : Except Fault Unit) : BornOut x x := .inr rfl

theorem BornOut.eq_ok (h : BornOut x y) (hx : x = .ok ()) : y = .ok () := by
  subst hx
  rcases h with h | h
  · cases h
  · exact verdict_eq_accepts_iff.1 h

theorem BornOut.bind {k l : Unit → Except Fault Unit} (h : BornOut x y)
    (hk : BornOut (k ()) (l ())) : BornOut (x >>= k) (y >>= l) := by
  cases x with
  | ok u =>
      obtain rfl := h.eq_ok rfl
      exact hk
  | error f =>
      rcases h with h | h
      · exact .inl h
      · cases y with
        | ok u =>
            have haccepts : verdict (.error f) = .accepts := h.symm
            cases verdict_eq_accepts_iff.1 haccepts
        | error g => exact .inr h

theorem BornOut.ofRead {α : Type} (z : Except Fault α) {k l : α → Except Fault Unit}
    (hk : ∀ a, BornOut (k a) (l a)) : BornOut (z >>= k) (z >>= l) := by
  cases z with
  | ok a => exact hk a
  | error f => exact .refl _

theorem BornOut.require (subject subject' : String) (holds : Bool) (c c' : Constraint) :
    BornOut (require subject holds c) (require subject' holds c') := by
  cases holds <;> exact .inr rfl

theorem BornOut.requireBound {α : Type} (subject subject' : String) (bound : Option α)
    (keeps : α → Bool) (c c' : α → Constraint) :
    BornOut (requireBound subject bound keeps c) (requireBound subject' bound keeps c') := by
  cases bound with
  | none => exact .refl _
  | some limit => exact .require _ _ _ _ _

theorem BornOut.requireMember {c c' : Common} (h : c.enum = c'.enum) (v : Value) :
    BornOut (requireMember c v) (requireMember c' v) := by
  unfold Validation.requireMember
  rw [h]
  exact .requireBound _ _ _ _ _ _

theorem BornOut.requireMultiple (subject subject' : String) (divisor : Option Number) (n : Number) :
    BornOut (requireMultiple subject divisor n) (requireMultiple subject' divisor n) := by
  unfold Validation.requireMultiple
  cases divisor with
  | none => exact .refl _
  | some m =>
      dsimp only
      split
      · exact .refl _
      · exact .ofRead _ fun holds => .require _ _ _ _ _

theorem BornOut.checkBounds (subject subject' : String) (f : NumberFacets) (n : Number) :
    BornOut (checkBounds subject f n) (checkBounds subject' f n) :=
  (BornOut.requireBound _ _ _ _ _ _).bind
    ((BornOut.requireBound _ _ _ _ _ _).bind (.requireMultiple _ _ _ n))

theorem BornOut.requireFormat (subject subject' : String) (format : Option String) (n : Int) :
    BornOut (requireFormat subject format n) (requireFormat subject' format n) := by
  cases format with
  | none => exact .refl _
  | some word => exact .requireBound _ _ _ _ _ _

theorem BornOut.requirePattern [Engines] (subject subject' : String) (pattern : Option String)
    (s : String) :
    BornOut (requirePattern subject pattern s) (requirePattern subject' pattern s) := by
  cases pattern with
  | none => exact .refl _
  | some source => exact .ofRead _ fun found => .require _ _ _ _ _

end Verdicts

/-! ## Scalars -/

theorem decodeJson_cases [Engines] (v : Value) :
    (∃ document, ∀ subject, decodeJson subject v = .ok document) ∨
      (∃ c, ∀ subject, decodeJson subject v = .error (.violation subject c)) ∨
      ∃ f, ∀ subject, decodeJson subject v = .error f := by
  cases v with
  | text s =>
      simp only [decodeJson]
      cases Engines.decode s with
      | ok document => exact .inl ⟨document, fun _ => rfl⟩
      | error e =>
          cases e with
          | malformed message => exact .inr (.inl ⟨_, fun _ => rfl⟩)
          | failed f => exact .inr (.inr ⟨f, fun _ => rfl⟩)
  | _ => exact .inl ⟨_, fun _ => rfl⟩

theorem BornOut.checkJson [Engines] (c c' : Common) (schema : Mapping) (v : Value) :
    BornOut (checkJson c schema v) (checkJson c' schema v) := by
  unfold Validation.checkJson
  rcases decodeJson_cases v with ⟨document, hdecode⟩ | ⟨constraint, hdecode⟩ | ⟨f, hdecode⟩
  · simp only [hdecode, Bind.bind, Except.bind]
    cases Engines.verdict schema document <;> exact .inr rfl
  · rw [hdecode, hdecode]
    exact .inr rfl
  · rw [hdecode, hdecode]
    exact .inr rfl

theorem BornOut.checkScalar [Engines] {c c' : Common} (henum : c.enum = c'.enum) (s : Scalar)
    (v : Value) : BornOut (checkScalar c s v) (checkScalar c' s v) := by
  have hmember := BornOut.requireMember henum
  cases s with
  | any => exact hmember v
  | string f =>
      cases v with
      | text s =>
          exact (BornOut.requireBound _ _ _ _ _ _).bind
            ((BornOut.requireBound _ _ _ _ _ _).bind
              ((BornOut.requirePattern _ _ _ _).bind (hmember _)))
      | _ => exact .inr rfl
  | number f =>
      simp only [Validation.checkScalar, checkNumber]
      split
      · exact (BornOut.checkBounds _ _ f _).bind (hmember v)
      · exact .inr rfl
  | integer f =>
      cases v with
      | int n =>
          exact (BornOut.requireFormat _ _ _ n).bind ((BornOut.checkBounds _ _ f _).bind (hmember _))
      | _ => exact .inr rfl
  | boolean =>
      cases v with
      | bool b => exact hmember _
      | _ => exact .inr rfl
  | nil => exact .require _ _ _ _ _
  | file f =>
      cases v with
      | bytes content =>
          exact (BornOut.requireBound _ _ _ _ _ _).bind (.requireBound _ _ _ _ _ _)
      | _ => exact .inr rfl
  | json schema => exact .checkJson c c' schema v
  | xml schema =>
      cases v with
      | text s => exact .ofRead _ fun well => .require _ _ _ _ _
      | _ => exact .inr rfl
  | temporal kind format => exact (BornOut.require _ _ _ _ _).bind (hmember v)

/-! ## Types that match -/

/-- Whether two types check a value alike, given which of the types that they ask check alike. -/
inductive Matches (r : Registry) (S : DataType → DataType → Prop) : DataType → DataType → Prop
  | scalar {c c' : Common} {s : Scalar} (henum : c.enum = c'.enum) :
      Matches r S (.scalar c s) (.scalar c' s)
  | object {c c' : Common} {f : ObjectFacets} {ps qs : List (String × DataType)}
      (henum : c.enum = c'.enum)
      (h : List.Forall₂ (fun p q => p.1 = q.1 ∧ p.2.required = q.2.required ∧ S p.2 q.2) ps qs) :
      Matches r S (.object c f ps) (.object c' f qs)
  | array {c c' : Common} {f : ArrayFacets} {t u : Option DataType} (henum : c.enum = c'.enum)
      (h : Option.Rel S t u) : Matches r S (.array c f t) (.array c' f u)
  | union {c c' : Common} {ts us : List DataType} (henum : c.enum = c'.enum)
      (h : List.Forall₂ S ts us) : Matches r S (.union c ts) (.union c' us)
  | target {c c' : Common} {target target' : String} {bound bound' : Bool} {t u : DataType}
      (ht : (DataType.reference c target bound).effective r = .ok t)
      (hu : (DataType.reference c' target' bound').effective r = .ok u) (h : S t u) :
      Matches r S (.reference c target bound) (.reference c' target' bound')
  | untargeted {c c' : Common} {target target' : String} {bound bound' : Bool} {f g : Fault}
      (hf : (DataType.reference c target bound).effective r = .error f)
      (hg : (DataType.reference c' target' bound').effective r = .error g)
      (h : verdict (.error g) = verdict (.error f)) :
      Matches r S (.reference c target bound) (.reference c' target' bound')

section Matches

variable {r : Registry} {S : DataType → DataType → Prop} {check check' : Check}

theorem Matches.refl (hS : ∀ t, S t t) (t : DataType) : Matches r S t t := by
  cases t with
  | scalar c s => exact .scalar rfl
  | object c f properties =>
      refine .object rfl (List.forall₂_same.2 fun p _ => ⟨rfl, rfl, hS p.2⟩)
  | array c f items =>
      cases items with
      | none => exact .array rfl .none
      | some t => exact .array rfl (.some (hS t))
  | union c members => exact .union rfl (List.forall₂_same.2 fun t _ => hS t)
  | reference c target bound =>
      cases h : (DataType.reference c target bound).effective r with
      | ok t => exact .target h h (hS t)
      | error f => exact .untargeted h h rfl

theorem Matches.symm (hS : ∀ t u, S t u → S u t) {t u : DataType} (h : Matches r S t u) :
    Matches r S u t := by
  cases h with
  | scalar henum => exact .scalar henum.symm
  | object henum h =>
      refine .object henum.symm (h.flip.imp fun p q hpq => ?_)
      exact ⟨hpq.1.symm, hpq.2.1.symm, hS _ _ hpq.2.2⟩
  | array henum h =>
      cases h with
      | none => exact .array henum.symm .none
      | some h => exact .array henum.symm (.some (hS _ _ h))
  | union henum h => exact .union henum.symm (h.flip.imp fun _ _ => hS _ _)
  | target ht hu h => exact .target hu ht (hS _ _ h)
  | untargeted hf hg h => exact .untargeted hg hf h.symm

theorem checkProperties_bornOut {entries : Mapping} {ps qs : List (String × DataType)}
    (h : List.Forall₂ (fun p q => p.1 = q.1 ∧ p.2.required = q.2.required ∧
      ∀ w, entries.field? p.1 = some w → BornOut (check p.2 w) (check' q.2 w)) ps qs) :
    BornOut (checkProperties check entries ps) (checkProperties check' entries qs) := by
  induction h with
  | nil => exact .refl _
  | @cons p q ps qs hpq _ ih =>
      obtain ⟨key, t⟩ := p
      obtain ⟨key', u⟩ := q
      obtain ⟨hkey, hrequired, hcheck⟩ := hpq
      dsimp only at hkey hrequired hcheck
      subst hkey
      rw [checkProperties_cons, checkProperties_cons]
      refine BornOut.bind ?_ ih
      cases hw : entries.field? key with
      | some w => exact hcheck w hw
      | none =>
          rw [hrequired]
          exact .require _ _ _ _ _

theorem forM_bornOut {t u : DataType} {vs : List Value}
    (h : ∀ w ∈ vs, BornOut (check t w) (check' u w)) :
    BornOut (vs.forM (check t)) (vs.forM (check' u)) := by
  induction vs with
  | nil => exact .refl _
  | cons w rest ih =>
      exact (h w (by simp)).bind (ih fun w' hw' => h w' (List.mem_cons_of_mem _ hw'))

/-- The search for a member that accepts ends alike unless it is out of depth. -/
theorem someAccepts_bornOut {ts us : List DataType} {v : Value}
    (h : List.Forall₂ (fun t u => BornOut (check t v) (check' u v)) ts us) :
    someAccepts check v ts = .error .endless ∨
      (∃ found, someAccepts check v ts = .ok found ∧ someAccepts check' v us = .ok found) ∨
      ∃ f g, someAccepts check v ts = .error f ∧ someAccepts check' v us = .error g ∧
        verdict (.error g) = verdict (.error f) := by
  induction h with
  | nil => exact .inr (.inl ⟨false, rfl, rfl⟩)
  | @cons t u ts us htu _ ih =>
      unfold someAccepts
      cases ht : check t v with
      | ok _ =>
          rw [htu.eq_ok ht]
          exact .inr (.inl ⟨true, rfl, rfl⟩)
      | error f =>
          rw [ht] at htu
          rcases htu with hend | hsame
          · obtain rfl := Except.error.inj (verdict_eq_unfinished_iff.1 hend)
            exact .inl rfl
          · cases hu : check' u v with
            | ok _ =>
                rw [hu] at hsame
                cases verdict_eq_accepts_iff.1 hsame.symm
            | error g =>
                rw [hu] at hsame
                have hviolation : isViolation g = isViolation f := by
                  rw [Bool.eq_iff_iff]
                  have hrejects := congrArg (· = Verdict.rejects) hsame
                  simpa [verdict_eq_rejects_iff] using hrejects
                dsimp only
                rw [hviolation]
                cases hf : isViolation f with
                | true => exact ih
                | false => exact .inr (.inr ⟨f, g, rfl, rfl, hsame⟩)

theorem checkUnion_bornOut {c c' : Common} (henum : c.enum = c'.enum) {ts us : List DataType}
    {v : Value} (h : List.Forall₂ (fun t u => BornOut (check t v) (check' u v)) ts us) :
    BornOut (checkUnion check c ts v) (checkUnion check' c' us v) := by
  unfold checkUnion
  rcases someAccepts_bornOut h with hend | ⟨found, hx, hy⟩ | ⟨f, g, hx, hy, hsame⟩
  · rw [hend]
    exact .inl rfl
  · rw [hx, hy]
    exact (BornOut.require _ _ _ _ _).bind (.requireMember henum v)
  · rw [hx, hy]
    exact .inr hsame

theorem Matches.bornOut [Engines] {x y : DataType} (h : Matches r S x y) {m n : Nat} {v : Value}
    (hasked : ∀ t u w, S t u → Asks r (x, v) (t, w) →
      BornOut (validateWithin r m t w) (validateWithin r n u w)) :
    BornOut (validateWithin r (m + 1) x v) (validateWithin r (n + 1) y v) := by
  cases h with
  | scalar henum => exact .checkScalar henum _ v
  | @object c c' f ps qs henum h =>
      cases v with
      | map entries =>
          have hproperties : BornOut (checkProperties (validateWithin r m) entries ps)
              (checkProperties (validateWithin r n) entries qs) := by
            refine checkProperties_bornOut ((forall₂_mem h).imp fun p q hpq => ?_)
            obtain ⟨hmem, hkey, hrequired, hS⟩ := hpq
            exact ⟨hkey, hrequired, fun w hw => hasked _ _ w hS (.property hmem hw)⟩
          have hkeys : Table.keys ps = Table.keys qs := by
            have hsame : List.Forall₂ (· = ·) (Table.keys ps) (Table.keys qs) := by
              rw [Table.keys, Table.keys, List.forall₂_map_left_iff, List.forall₂_map_right_iff]
              exact h.imp fun _ _ hpq => hpq.1
            rwa [List.forall₂_eq_eq_eq] at hsame
          have hundeclared : undeclaredKeys ps entries = undeclaredKeys qs entries := by
            unfold undeclaredKeys
            simp only [Table.has_eq_any, hkeys]
          simp only [validateWithin, checkObject, hundeclared]
          exact (BornOut.requireBound _ _ _ _ _ _).bind
            ((BornOut.requireBound _ _ _ _ _ _).bind
              (hproperties.bind ((BornOut.require _ _ _ _ _).bind (.requireMember henum _))))
      | _ => exact .inr rfl
  | @array c c' f t u henum h =>
      simp only [validateWithin, checkArray]
      cases hv : v.items? with
      | none => exact .inr rfl
      | some vs =>
          have hitems : BornOut (checkItems (validateWithin r m) t vs)
              (checkItems (validateWithin r n) u vs) := by
            cases h with
            | none => exact .refl _
            | some h => exact forM_bornOut fun w hw => hasked _ _ w h (.item hv hw)
          exact (BornOut.requireBound _ _ _ _ _ _).bind
            ((BornOut.requireBound _ _ _ _ _ _).bind
              ((BornOut.require _ _ _ _ _).bind (hitems.bind (.requireMember henum _))))
  | union henum h =>
      refine checkUnion_bornOut henum ((forall₂_mem h).imp fun t u htu => ?_)
      exact hasked t u v htu.2 (.member htu.1)
  | target ht hu h =>
      simp only [validateWithin, ht, hu]
      exact hasked _ _ v h (.target ht)
  | untargeted hf hg h =>
      simp only [validateWithin, hf, hg]
      exact .inr h

/-- Types that match as far as those that they ask do come to the same verdict, at whatever depth
the second is checked, if it is checked no less deeply. -/
theorem bornOut_of_matches [Engines] (hS : ∀ t u, S t u → Matches r S t u) {m n : Nat} (hmn : m ≤ n)
    {t u : DataType} (h : S t u) (v : Value) :
    BornOut (validateWithin r m t v) (validateWithin r n u v) := by
  induction m generalizing n t u v with
  | zero => exact .inl rfl
  | succ m ih =>
      obtain ⟨n, rfl⟩ : ∃ k, n = k + 1 := ⟨n - 1, by omega⟩
      exact (hS t u h).bornOut fun t' u' w h' _ => ih (by omega) h' w

theorem validateWithin_bornOut [Engines] {m n : Nat} (hmn : m ≤ n) (t : DataType) (v : Value) :
    BornOut (validateWithin r m t v) (validateWithin r n t v) :=
  bornOut_of_matches (S := Eq) (fun t _ h => h ▸ Matches.refl (fun _ => rfl) t) hmn rfl v

/-- A check that comes to an end one level deeper than before has asked for one that did so too. -/
theorem exists_asked_of_finished [Engines] {n : Nat} {t : DataType} {v : Value}
    (hopen : validateWithin r (n + 1) t v = .error .endless)
    (hdone : validateWithin r (n + 2) t v ≠ .error .endless) :
    ∃ u w, Asks r (t, v) (u, w) ∧ validateWithin r n u w = .error .endless ∧
      validateWithin r (n + 1) u w ≠ .error .endless := by
  by_contra hnone
  have hback : BornOut (validateWithin r (n + 2) t v) (validateWithin r (n + 1) t v) := by
    refine (Matches.refl (S := Eq) (fun _ => rfl) t).bornOut fun t' u' w h' hasked => ?_
    subst h'
    by_cases hend : validateWithin r (n + 1) t' w = .error .endless
    · exact .inl (verdict_eq_unfinished_iff.2 hend)
    · have hearly : validateWithin r n t' w ≠ .error .endless := fun hn =>
        hnone ⟨t', w, hasked, hn, hend⟩
      rcases validateWithin_bornOut (r := r) (Nat.le_succ n) t' w with h | h
      · exact absurd (verdict_eq_unfinished_iff.1 h) hearly
      · exact .inr h.symm
  rcases hback with h | h
  · exact hdone (verdict_eq_unfinished_iff.1 h)
  · rw [hopen] at h
    exact hdone (verdict_eq_unfinished_iff.1 h.symm)

end Matches

end Validation

end Raml
