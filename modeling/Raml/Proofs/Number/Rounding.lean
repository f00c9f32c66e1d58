import Mathlib.Algebra.Order.Group.Nat
import Raml.Number.Binary64
import Raml.Proofs.Value.Keys

/-! # Rounding whole magnitudes

`nearest x` is the magnitude that the whole number `x` is rounded to, with no
bound on its size. The binades are kept by rounding, which makes it monotone,
and it commutes with powers of two. The operations on finite numbers whose
exact result is a whole count of units are told by it.
-/

namespace Raml.Binary64

/-! ## Quotients -/

variable {num den k : Nat}

theorem le_roundQuotient (hden : 0 < den) (h : k * den ≤ num) : k ≤ roundQuotient num den := by
  have hk : k ≤ num / den := (Nat.le_div_iff_mul_le hden).2 h
  unfold roundQuotient
  dsimp only
  split_ifs <;> omega

theorem roundQuotient_le (hden : 0 < den) (h : num ≤ k * den) : roundQuotient num den ≤ k := by
  have hsum : den * (num / den) + num % den = num := Nat.div_add_mod num den
  have hlt : num % den < den := Nat.mod_lt _ hden
  have hk : num / den ≤ k := Nat.div_le_of_le_mul (by rwa [Nat.mul_comm] at h)
  -- A quotient that is rounded up has a rest, so that it was below the bound.
  have hrest : num % den ≠ 0 → num / den + 1 ≤ k := fun hrest => by
    by_contra hge
    have heq : num / den = k := by omega
    rw [heq, Nat.mul_comm] at hsum
    omega
  unfold roundQuotient
  dsimp only
  split_ifs <;> omega

theorem roundQuotient_mul_self (hden : 0 < den) : roundQuotient (k * den) den = k :=
  Nat.le_antisymm (roundQuotient_le hden (Nat.le_refl _)) (le_roundQuotient hden (Nat.le_refl _))

theorem roundQuotient_mono {other : Nat} (hden : 0 < den) (h : num ≤ other) :
    roundQuotient num den ≤ roundQuotient other den := by
  obtain hlt | heq := Nat.lt_or_eq_of_le (Nat.div_le_div_right (c := den) h)
  · have hbound : num ≤ (num / den + 1) * den := by
      have := Nat.lt_mul_div_succ num hden
      rw [Nat.mul_comm] at this
      omega
    have hother : (num / den + 1) * den ≤ other :=
      (Nat.le_div_iff_mul_le hden).1 (Nat.succ_le_of_lt hlt)
    exact Nat.le_trans (roundQuotient_le hden hbound) (le_roundQuotient hden hother)
  · -- With the same quotient the rests are ordered, and the parity is the same.
    have hnum : den * (num / den) + num % den = num := Nat.div_add_mod num den
    have hother : den * (other / den) + other % den = other := Nat.div_add_mod other den
    rw [← heq] at hother
    have hrest : num % den ≤ other % den := by omega
    unfold roundQuotient
    dsimp only
    rw [← heq]
    split_ifs <;> omega

theorem roundQuotient_mul_right {scale : Nat} (hscale : 0 < scale) :
    roundQuotient (num * scale) (den * scale) = roundQuotient num den := by
  have hless : ∀ a b : Nat, (2 * (a * scale) < b * scale ↔ 2 * a < b) := fun a b => by
    rw [← Nat.mul_assoc]
    exact Nat.mul_lt_mul_right hscale
  have hmore : ∀ a b : Nat, (b * scale < 2 * (a * scale) ↔ b < 2 * a) := fun a b => by
    rw [← Nat.mul_assoc]
    exact Nat.mul_lt_mul_right hscale
  unfold roundQuotient
  dsimp only
  simp only [Nat.mul_div_mul_right _ _ hscale, Nat.mul_mod_mul_right, hless, hmore]

/-! ## Whole numbers -/

/-- The magnitude with 53 significant bits that is nearest to a whole number. -/
def nearest (x : Nat) : Nat := roundQuotient x (spacing x) * spacing x

theorem spacing_eq (x : Nat) : spacing x = 2 ^ (x.log2 - 52) := rfl

theorem spacing_pos (x : Nat) : 0 < spacing x := Nat.two_pow_pos _

theorem nearest_of_dvd {x : Nat} (h : spacing x ∣ x) : nearest x = x := by
  obtain ⟨k, hk⟩ := h
  have hx : x = k * spacing x := by rwa [Nat.mul_comm] at hk
  rw [nearest]
  conv_lhs => rw [show roundQuotient x (spacing x) = roundQuotient (k * spacing x) (spacing x) from
    congrArg (roundQuotient · (spacing x)) hx]
  rw [roundQuotient_mul_self (spacing_pos x), ← hx]

theorem nearest_two_pow (k : Nat) : nearest (2 ^ k) = 2 ^ k := by
  refine nearest_of_dvd ?_
  rw [spacing_eq, Nat.log2_two_pow]
  exact Nat.pow_dvd_pow 2 (Nat.sub_le k 52)

theorem nearest_of_lt {x : Nat} (h : x < 2 ^ 53) : nearest x = x := by
  refine nearest_of_dvd ?_
  have hlog : x.log2 - 52 = 0 := by
    by_cases hx : x = 0
    · subst hx
      rfl
    · have := (Nat.log2_lt hx).2 h
      omega
  rw [spacing_eq, hlog]
  exact Nat.one_dvd x

theorem nearest_of_le {x : Nat} (h : x ≤ 2 ^ 53) : nearest x = x := by
  obtain hlt | heq := Nat.lt_or_eq_of_le h
  · exact nearest_of_lt hlt
  · rw [heq, nearest_two_pow]

@[simp] theorem nearest_zero : nearest 0 = 0 := nearest_of_le (Nat.zero_le _)

/-- A binade holds what its members are rounded to, up to the number where the next one starts. -/
theorem nearest_bounds {x : Nat} (hx : x ≠ 0) :
    2 ^ x.log2 ≤ nearest x ∧ nearest x ≤ 2 ^ (x.log2 + 1) := by
  have hlow : 2 ^ x.log2 ≤ x := Nat.log2_self_le hx
  have hhigh : x < 2 ^ (x.log2 + 1) := Nat.lt_log2_self
  by_cases hsmall : x.log2 < 53
  · have hle : x ≤ 2 ^ 53 :=
      Nat.le_of_lt (Nat.lt_of_lt_of_le hhigh (Nat.pow_le_pow_right (by omega) (by omega)))
    rw [nearest_of_le hle]
    exact ⟨hlow, Nat.le_of_lt hhigh⟩
  · -- The bounds are multiples of the spacing.
    have hstep : ∀ k, 52 ≤ k → 2 ^ (k - 52) * 2 ^ 52 = 2 ^ k := fun k hk => by
      rw [← Nat.pow_add]
      congr 1
      omega
    have hbase : 2 ^ 52 * spacing x = 2 ^ x.log2 := by
      rw [spacing_eq, Nat.mul_comm, hstep _ (by omega)]
    have hnext : 2 ^ 53 * spacing x = 2 ^ (x.log2 + 1) := by
      rw [Nat.pow_succ 2 x.log2, ← hbase]
      omega
    constructor
    · rw [← hbase]
      exact Nat.mul_le_mul_right _ (le_roundQuotient (spacing_pos x) (by omega))
    · rw [← hnext]
      exact Nat.mul_le_mul_right _ (roundQuotient_le (spacing_pos x) (by omega))

theorem nearest_pos {x : Nat} (hx : 0 < x) : 0 < nearest x :=
  Nat.lt_of_lt_of_le (Nat.two_pow_pos _) (nearest_bounds (Nat.pos_iff_ne_zero.1 hx)).1

theorem nearest_mono {x y : Nat} (h : x ≤ y) : nearest x ≤ nearest y := by
  by_cases hx : x = 0
  · rw [hx, nearest_zero]
    exact Nat.zero_le _
  have hy : y ≠ 0 := by omega
  have hlog : x.log2 ≤ y.log2 :=
    (Nat.le_log2 hy).2 (Nat.le_trans (Nat.log2_self_le hx) h)
  obtain hlt | heq := Nat.lt_or_eq_of_le hlog
  · calc nearest x
        ≤ 2 ^ (x.log2 + 1) := (nearest_bounds hx).2
      _ ≤ 2 ^ y.log2 := Nat.pow_le_pow_right (by omega) hlt
      _ ≤ nearest y := (nearest_bounds hy).1
  · have hspacing : spacing x = spacing y := by rw [spacing_eq, spacing_eq, heq]
    rw [nearest, nearest, hspacing]
    exact Nat.mul_le_mul_right _ (roundQuotient_mono (spacing_pos y) h)

/-- What is rounded has 53 significant bits, so that rounding it again changes nothing. -/
theorem nearest_nearest (x : Nat) : nearest (nearest x) = nearest x := by
  by_cases hx : x = 0
  · rw [hx, nearest_zero, nearest_zero]
  obtain ⟨hlow, hhigh⟩ := nearest_bounds hx
  obtain hlt | heq := Nat.lt_or_eq_of_le hhigh
  · have hpos : nearest x ≠ 0 := Nat.pos_iff_ne_zero.1 (nearest_pos (by omega))
    have hlog : (nearest x).log2 = x.log2 := (Nat.log2_eq_iff hpos).2 ⟨hlow, hlt⟩
    refine nearest_of_dvd ?_
    rw [spacing_eq, hlog, ← spacing_eq]
    exact Nat.dvd_mul_left _ _
  · rw [heq, nearest_two_pow]

theorem log2_mul_two_pow {x : Nat} (hx : x ≠ 0) (k : Nat) :
    (x * 2 ^ k).log2 = x.log2 + k := by
  have hne : x * 2 ^ k ≠ 0 := Nat.mul_ne_zero hx (Nat.two_pow_pos k).ne'
  refine (Nat.log2_eq_iff hne).2 ⟨?_, ?_⟩
  · rw [Nat.pow_add]
    exact Nat.mul_le_mul_right _ (Nat.log2_self_le hx)
  · rw [Nat.add_right_comm, Nat.pow_add]
    exact Nat.mul_lt_mul_of_pos_right Nat.lt_log2_self (Nat.two_pow_pos k)

theorem nearest_mul_two_pow (x k : Nat) : nearest (x * 2 ^ k) = nearest x * 2 ^ k := by
  by_cases hx : x = 0
  · rw [hx, Nat.zero_mul, nearest_zero, Nat.zero_mul]
  have hlog : (x * 2 ^ k).log2 = x.log2 + k := log2_mul_two_pow hx k
  by_cases hsmall : x < 2 ^ 53
  · rw [nearest_of_lt hsmall]
    refine nearest_of_dvd ?_
    have : x.log2 < 53 := (Nat.log2_lt hx).2 hsmall
    rw [spacing_eq, hlog]
    exact Nat.dvd_trans (Nat.pow_dvd_pow 2 (by omega)) (Nat.dvd_mul_left _ _)
  · have hge : 53 ≤ x.log2 := (Nat.le_log2 hx).2 (by omega)
    have hspacing : spacing (x * 2 ^ k) = spacing x * 2 ^ k := by
      rw [spacing_eq, spacing_eq, hlog, ← Nat.pow_add]
      congr 1
      omega
    rw [nearest, nearest, hspacing, roundQuotient_mul_right (Nat.two_pow_pos k), Nat.mul_assoc]

/-- Rounding brings no two numbers together that are far apart. -/
theorem nearest_lt_nearest {x y : Nat} (hy : 0 < y) (h : 4 * x ≤ y) : nearest x < nearest y := by
  by_cases hx : x = 0
  · rw [hx, nearest_zero]
    exact nearest_pos hy
  have hdouble : 2 ^ (x.log2 + 2) ≤ y := by
    have := Nat.log2_self_le hx
    rw [Nat.pow_add]
    omega
  calc nearest x
      ≤ 2 ^ (x.log2 + 1) := (nearest_bounds hx).2
    _ < 2 ^ (x.log2 + 2) := Nat.pow_lt_pow_right (by omega) (by omega)
    _ = nearest (2 ^ (x.log2 + 2)) := (nearest_two_pow _).symm
    _ ≤ nearest y := nearest_mono hdouble

theorem nearest_mul_one (x : Nat) : nearest (x * one) = nearest x * one := by
  unfold one
  generalize 1074 = k
  exact nearest_mul_two_pow x k

/-! ## The greatest number -/

/-- How many ones make the limit. -/
def wholeLimit : Nat := Nat.pow 2 1024

/-- The first whole number that is rounded to an infinity. -/
def tooLarge : Nat := Nat.pow 2 1024 - Nat.pow 2 970

theorem limit_eq : limit = wholeLimit * one := by
  decide +kernel

theorem nearest_lt_iff (x : Nat) : nearest x < wholeLimit ↔ x < tooLarge := by
  have hlarge : wholeLimit ≤ nearest tooLarge := by decide +kernel
  have hgreatest : nearest (tooLarge - 1) < wholeLimit := by decide +kernel
  generalize wholeLimit = bound at hlarge hgreatest ⊢
  generalize tooLarge = first at hlarge hgreatest ⊢
  constructor
  · intro hlt
    by_contra hge
    have := nearest_mono (Nat.not_lt.1 hge)
    omega
  · intro hlt
    have := nearest_mono (Nat.le_sub_one_of_lt hlt)
    omega

/-! ## Operations -/

/-- A quotient that is a whole count of units is rounded as that count. -/
theorem ofRatio_of_eq {x : Nat} (negative : Bool) (hden : 0 < den) (h : num * one = x * den) :
    ofRatio negative num den =
      if nearest x < limit then .finite negative (nearest x) else .infinite negative := by
  have hquotient : num * one / den = x := by rw [h, Nat.mul_div_cancel _ hden]
  have hround : roundQuotient (num * one) (den * spacing x) = roundQuotient x (spacing x) := by
    rw [h, Nat.mul_comm den, roundQuotient_mul_right hden]
  rw [ofRatio, hquotient, hround]
  rfl

theorem nearest_mul_one_lt_limit_iff (x : Nat) : nearest (x * one) < limit ↔ x < tooLarge := by
  rw [nearest_mul_one, limit_eq, Nat.mul_lt_mul_right one_pos, nearest_lt_iff]

theorem ofRatio_one_right (negative : Bool) (n : Nat) :
    ofRatio negative n 1 =
      if n < tooLarge then .finite negative (nearest n * one) else .infinite negative := by
  have hround := ofRatio_of_eq negative Nat.one_pos (Nat.mul_one (n * one)).symm
  by_cases hlt : n < tooLarge
  · rw [hround, if_pos ((nearest_mul_one_lt_limit_iff n).2 hlt), if_pos hlt, nearest_mul_one]
  · have hge : ¬ nearest (n * one) < limit := fun h => hlt ((nearest_mul_one_lt_limit_iff n).1 h)
    rw [hround, if_neg hge, if_neg hlt]

/-- An integer is rounded, unless that is too large. -/
theorem ofInt?_eq (n : Int) :
    ofInt? n =
      if n.natAbs < tooLarge then some (.finite (n < 0) (nearest n.natAbs * one)) else none := by
  rw [ofInt?, ofRatio_one_right]
  by_cases hlt : n.natAbs < tooLarge
  · rw [if_pos hlt, if_pos hlt]
    rfl
  · rw [if_neg hlt, if_neg hlt]
    rfl

theorem distance_eq {s t : Bool} {u v : Nat}
    (h : nearest (signedUnits s u - signedUnits t v).natAbs < limit) :
    distance (.finite s u) (.finite t v) =
      .finite false (nearest (signedUnits s u - signedUnits t v).natAbs) := by
  rw [distance, ofRatio_of_eq false one_pos rfl, if_pos h]

theorem mul_whole {s t : Bool} {u n : Nat} (h : nearest (u * n) < limit) :
    mul (.finite s u) (.finite t (n * one)) = .finite (s != t) (nearest (u * n)) := by
  have hratio : u * (n * one) * one = u * n * (one * one) := by
    rw [Nat.mul_assoc, Nat.mul_assoc n, ← Nat.mul_assoc u]
  rw [mul, ofRatio_of_eq _ (Nat.mul_pos one_pos one_pos) hratio, if_pos h]

end Raml.Binary64
