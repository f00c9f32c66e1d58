import Raml.Number.Basic

/-! # Sizes of numbers

A number of either kind has an exact size, a whole number of binary64 units or
an infinity; what is no number has none. Numbers are equal if they have the same
size, and one is below another one if its size is the smaller one.
-/

namespace Raml

theorem Binary64.one_pos : 0 < Binary64.one := by
  have h (n : Nat) : 0 < Nat.pow 2 n := Nat.two_pow_pos n
  unfold Binary64.one
  generalize 1074 = n
  exact h n

theorem Binary64.toInt?_eq_some_iff (s : Bool) (u : Nat) (n : Int) :
    (Binary64.finite s u).toInt? = some n ↔
      n * (Binary64.one : Int) = Binary64.signedUnits s u := by
  have hpos := Binary64.one_pos
  unfold Binary64.toInt? Binary64.signedUnits
  generalize Binary64.one = one at hpos
  have hne : (one : Int) ≠ 0 := by omega
  have hsplit := Nat.div_add_mod u one
  by_cases hmod : u % one = 0
  · have hu : (u : Int) = (u / one : Nat) * (one : Int) := by
      rw [hmod, Nat.add_zero, Nat.mul_comm] at hsplit
      rw [← Int.natCast_mul, hsplit]
    cases s with
    | false =>
        simp only [hmod, if_true, Bool.false_eq_true, if_false, Option.some.injEq]
        rw [hu, Int.mul_eq_mul_right_iff hne]
        exact eq_comm
    | true =>
        simp only [hmod, if_true, Option.some.injEq]
        rw [hu, ← Int.neg_mul, Int.mul_eq_mul_right_iff hne]
        exact eq_comm
  · simp only [hmod, if_false, reduceCtorEq, false_iff]
    intro h
    have hdvd : (one : Int) ∣ u := by
      cases s with
      | false => exact ⟨n, by simpa [Int.mul_comm] using h.symm⟩
      | true => exact ⟨-n, by simp only [if_true] at h; rw [Int.mul_neg, Int.mul_comm, h]; omega⟩
    exact hmod (Nat.mod_eq_zero_of_dvd (Int.natCast_dvd_natCast.1 hdvd))

namespace Number

/-- The exact size of a number, in binary64 units if it is finite. -/
inductive Size
  | infinite (negative : Bool)
  | units (n : Int)

def size? : Number → Option Number.Size
  | .int n => some (.units (n * Binary64.one))
  | .float (.finite s u) => some (.units (Binary64.signedUnits s u))
  | .float (.infinite s) => some (.infinite s)
  | .float (.notNumber _) => none

@[simp] theorem size?_notNumber (i : Option Nat) :
    (Number.float (.notNumber i)).size? = none := rfl

theorem same_iff (m n : Number) :
    m.same n = true ↔ m.size? = n.size? ∧ m.size? ≠ none := by
  cases m with
  | int m =>
      cases n with
      | int n =>
          have hne : (Binary64.one : Int) ≠ 0 := by have := Binary64.one_pos; omega
          simp only [Number.same, Number.size?, beq_iff_eq, Option.some.injEq, Size.units.injEq,
            Int.mul_eq_mul_right_iff hne, ne_eq, reduceCtorEq, not_false_eq_true, and_true]
      | float y =>
          cases y with
          | finite s u =>
              simp only [Number.same, Number.size?, beq_iff_eq, Binary64.toInt?_eq_some_iff,
                Option.some.injEq, Size.units.injEq, ne_eq, reduceCtorEq, not_false_eq_true,
                and_true]
          | notNumber i =>
              simp only [Number.same, Number.size?, Binary64.toInt?, beq_iff_eq, reduceCtorEq,
                false_and]
          | infinite s =>
              simp only [Number.same, Number.size?, Binary64.toInt?, beq_iff_eq,
                Option.some.injEq, reduceCtorEq, false_and]
  | float x =>
      cases n with
      | int n =>
          cases x with
          | finite s u =>
              simp only [Number.same, Number.size?, beq_iff_eq, Binary64.toInt?_eq_some_iff,
                Option.some.injEq, Size.units.injEq, ne_eq, reduceCtorEq, not_false_eq_true,
                and_true]
              exact eq_comm
          | notNumber i =>
              simp only [Number.same, Number.size?, Binary64.toInt?, beq_iff_eq, reduceCtorEq,
                false_and]
          | infinite s =>
              simp only [Number.same, Number.size?, Binary64.toInt?, beq_iff_eq,
                Option.some.injEq, reduceCtorEq, false_and]
      | float y => cases x <;> cases y <;> simp [Number.same, Number.size?, Binary64.same]

/-! ## Order -/

inductive Size.Below : Size → Size → Prop
  | units {m n : Int} (h : m < n) : Below (.units m) (.units n)
  | aboveInfinity (n : Int) : Below (.infinite true) (.units n)
  | belowInfinity (n : Int) : Below (.units n) (.infinite false)
  | infinities : Below (.infinite true) (.infinite false)

def IsBelow (m n : Number) : Prop :=
  ∃ s t, m.size? = some s ∧ n.size? = some t ∧ s.Below t

theorem Size.below_units_iff (m n : Int) : Below (.units m) (.units n) ↔ m < n :=
  ⟨fun | .units h => h, .units⟩

theorem Size.below_units_infinite_iff (n : Int) (s : Bool) :
    Below (.units n) (.infinite s) ↔ s = false := by
  constructor
  · rintro ⟨⟩
    rfl
  · rintro rfl
    exact .belowInfinity n

theorem Size.below_infinite_units_iff (s : Bool) (n : Int) :
    Below (.infinite s) (.units n) ↔ s = true := by
  constructor
  · rintro ⟨⟩
    rfl
  · rintro rfl
    exact .aboveInfinity n

theorem Size.below_infinite_iff (s t : Bool) :
    Below (.infinite s) (.infinite t) ↔ s = true ∧ t = false := by
  constructor
  · rintro ⟨⟩
    exact ⟨rfl, rfl⟩
  · rintro ⟨rfl, rfl⟩
    exact .infinities

theorem isBelow_iff {m n : Number} {s t : Size} (hm : m.size? = some s) (hn : n.size? = some t) :
    m.IsBelow n ↔ s.Below t := by
  simp only [IsBelow, hm, hn, Option.some.injEq, exists_and_left, exists_eq_left']

theorem not_isBelow_of_left {m : Number} (h : m.size? = none) (n : Number) : ¬ m.IsBelow n := by
  rintro ⟨s, -, hs, -⟩
  cases h.symm.trans hs

theorem not_isBelow_of_right {n : Number} (h : n.size? = none) (m : Number) : ¬ m.IsBelow n := by
  rintro ⟨-, t, -, ht, -⟩
  cases h.symm.trans ht

theorem less_iff (m n : Number) : m.less n = true ↔ m.IsBelow n := by
  have hone : 0 < (Binary64.one : Int) := by
    have := Binary64.one_pos
    omega
  cases m with
  | int m =>
      cases n with
      | int n =>
          rw [isBelow_iff rfl rfl, Size.below_units_iff, Int.mul_lt_mul_right hone]
          exact decide_eq_true_iff
      | float y =>
          cases y with
          | finite s u =>
              rw [isBelow_iff rfl rfl, Size.below_units_iff]
              exact decide_eq_true_iff
          | infinite s =>
              rw [isBelow_iff rfl rfl, Size.below_units_infinite_iff]
              simp only [less, Bool.not_eq_true']
          | notNumber i => exact iff_of_false Bool.false_ne_true (not_isBelow_of_right rfl _)
  | float x =>
      cases n with
      | int n =>
          cases x with
          | finite s u =>
              rw [isBelow_iff rfl rfl, Size.below_units_iff]
              exact decide_eq_true_iff
          | infinite s =>
              rw [isBelow_iff rfl rfl, Size.below_infinite_units_iff]
              exact Iff.rfl
          | notNumber i => exact iff_of_false Bool.false_ne_true (not_isBelow_of_left rfl _)
      | float y =>
          cases x with
          | notNumber i => exact iff_of_false Bool.false_ne_true (not_isBelow_of_left rfl _)
          | finite s u =>
              cases y with
              | finite t v =>
                  rw [isBelow_iff rfl rfl, Size.below_units_iff]
                  exact decide_eq_true_iff
              | infinite t =>
                  rw [isBelow_iff rfl rfl, Size.below_units_infinite_iff]
                  simp only [less, Binary64.less, Bool.not_eq_true']
              | notNumber j => exact iff_of_false Bool.false_ne_true (not_isBelow_of_right rfl _)
          | infinite s =>
              cases y with
              | finite t v =>
                  rw [isBelow_iff rfl rfl, Size.below_infinite_units_iff]
                  exact Iff.rfl
              | infinite t =>
                  rw [isBelow_iff rfl rfl, Size.below_infinite_iff]
                  simp only [less, Binary64.less, Bool.and_eq_true, Bool.not_eq_true']
              | notNumber j => exact iff_of_false Bool.false_ne_true (not_isBelow_of_right rfl _)

end Number

end Raml
