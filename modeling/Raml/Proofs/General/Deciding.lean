import Raml.Validation.Requirement

/-! # Checks that decide a condition

A check that ends in acceptance or in a violation tells whether a condition
holds. There is one rule for each way to put requirements together; where a
check ends in another way it has nothing to tell.
-/

namespace Raml

namespace Validation

/-- Whether a check that ends in acceptance or in a violation tells whether a condition holds. -/
structure Decides (x : Except Fault Unit) (P : Prop) : Prop where
  accepted : x = .ok () → P
  violated : ∀ f, x = .error f → isViolation f = true → ¬ P

section Decides

variable {α : Type} {P Q : Prop} {x y : Except Fault Unit}

theorem Decides.congr (h : Decides x P) (hiff : P ↔ Q) : Decides x Q where
  accepted hx := hiff.1 (h.accepted hx)
  violated f hf hv hq := h.violated f hf hv (hiff.2 hq)

theorem Decides.self : Decides x (x = .ok ()) where
  accepted h := h
  violated f hf _ h := by
    rw [hf] at h
    cases h

theorem Decides.ok (hp : P) : Decides (.ok ()) P where
  accepted _ := hp
  violated _ hf := by cases hf

theorem Decides.refused (f : Fault) (hp : ¬ P) : Decides (.error f) P where
  accepted hx := by cases hx
  violated _ _ _ := hp

/-- A check that ends in another way has nothing to tell. -/
theorem Decides.fault {f : Fault} (hf : isViolation f = false) : Decides (.error f) P where
  accepted hx := by cases hx
  violated g hg hv := by
    obtain rfl := Except.error.inj hg
    rw [hf] at hv
    cases hv

theorem Decides.require (subject : String) (holds : Bool) (c : Constraint) :
    Decides (Validation.require subject holds c) (holds = true) := by
  unfold Validation.require
  by_cases h : holds = true
  · rw [if_pos h]
    exact .ok h
  · rw [if_neg h]
    exact .refused _ h

theorem Decides.requireBound (subject : String) (bound : Option α) (keeps : α → Bool)
    (c : α → Constraint) :
    Decides (Validation.requireBound subject bound keeps c)
      (∀ limit, bound = some limit → keeps limit = true) := by
  cases bound with
  | none => exact .ok (by simp)
  | some limit =>
      have h := Decides.require subject (keeps limit) (c limit)
      exact h.congr (by simp)

theorem Decides.and (h : Decides x P) (hy : Decides y Q) : Decides (x >>= fun _ => y) (P ∧ Q) := by
  cases x with
  | ok u =>
      have hp := h.accepted rfl
      exact hy.congr (by simp [hp])
  | error f =>
      cases hf : isViolation f with
      | false => exact .fault hf
      | true =>
          have hp := h.violated f rfl hf
          exact
            { accepted := fun hx => by cases hx
              violated := fun _ _ _ hpq => hp hpq.1 }

/-- What a requirement is about is read first; where that fails nothing is met. -/
theorem Decides.ofRead {z : Except Fault α} {k : α → Except Fault Unit} {R : α → Prop}
    (hk : ∀ a, z = .ok a → Decides (k a) (R a)) : Decides (z >>= k) (∃ a, z = .ok a ∧ R a) := by
  cases z with
  | ok a => exact (hk a rfl).congr (by simp)
  | error f => exact .refused f (by simp)

theorem Decides.forM {check : α → Except Fault Unit} {R : α → Prop}
    (h : ∀ a, Decides (check a) (R a)) (xs : List α) : Decides (xs.forM check) (∀ a ∈ xs, R a) := by
  induction xs with
  | nil => exact .ok (by simp)
  | cons a rest ih => exact ((h a).and ih).congr (by simp)

end Decides

end Validation

end Raml
