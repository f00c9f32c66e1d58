import Mathlib.Algebra.Order.Group.Nat
import Mathlib.Data.List.TakeWhile
import Raml.Calendar.Layout

/-! # Numbers in a fixed number of digits

A numeral is a given number of ASCII digits. There is one for each number that it has room for,
which is how the number is written with zeros in front, and reading it gives the number back
whatever follows.
-/

namespace Raml

namespace Calendar

/-- Whether a text is a number in so many ASCII digits. -/
structure IsNumeral (width n : Nat) (digits : List Char) : Prop where
  length : digits.length = width
  ascii : ∀ c ∈ digits, c.isDigit = true
  value : Nat.ofDigitChars 10 digits 0 = n

/-! ## One numeral for each number -/

theorem digit_lt {c : Char} (h : c.isDigit = true) : c.toNat - '0'.toNat < 10 := by
  rw [Char.isDigit_iff_toNat] at h
  have hle : c.toNat ≤ '0'.toNat + 9 := h.2
  omega

theorem toNat_eq_of_digit {c : Char} (h : c.isDigit = true) :
    c.toNat = '0'.toNat + (c.toNat - '0'.toNat) := by
  rw [Char.isDigit_iff_toNat] at h
  have hle : '0'.toNat ≤ c.toNat := h.1
  omega

theorem ofDigitChars_cons_zero (c : Char) (digits : List Char) :
    Nat.ofDigitChars 10 (c :: digits) 0 =
      10 ^ digits.length * (c.toNat - '0'.toNat) + Nat.ofDigitChars 10 digits 0 := by
  rw [Nat.ofDigitChars_cons, Nat.ofDigitChars_eq_ofDigitChars_zero]
  simp

theorem ofDigitChars_lt {digits : List Char} (h : ∀ c ∈ digits, c.isDigit = true) :
    Nat.ofDigitChars 10 digits 0 < 10 ^ digits.length := by
  induction digits with
  | nil => decide
  | cons c rest ih =>
      rw [List.forall_mem_cons] at h
      have hrest := ih h.2
      have hc : 10 ^ rest.length * (c.toNat - '0'.toNat) ≤ 10 ^ rest.length * 9 :=
        Nat.mul_le_mul_left _ (Nat.le_of_lt_succ (digit_lt h.1))
      rw [ofDigitChars_cons_zero, List.length_cons, Nat.pow_succ]
      omega

theorem IsNumeral.unique {width n : Nat} {a b : List Char} (ha : IsNumeral width n a)
    (hb : IsNumeral width n b) : a = b := by
  induction a generalizing b width n with
  | nil =>
      have hlength : b.length = 0 := hb.length.trans ha.length.symm
      exact (List.length_eq_zero_iff.1 hlength).symm
  | cons c a ih =>
      cases b with
      | nil => cases ha.length.trans hb.length.symm
      | cons d b =>
          have hac := List.forall_mem_cons.1 ha.ascii
          have hbd := List.forall_mem_cons.1 hb.ascii
          have hlength : a.length = b.length := Nat.succ.inj (ha.length.trans hb.length.symm)
          have hvalue := ha.value.trans hb.value.symm
          rw [ofDigitChars_cons_zero, ofDigitChars_cons_zero, hlength] at hvalue
          have hlta := ofDigitChars_lt hac.2
          have hltb := ofDigitChars_lt hbd.2
          rw [hlength] at hlta
          have hpos : 0 < 10 ^ b.length := Nat.pow_pos (by decide)
          -- the first digit is the quotient by the power, and the others make up the remainder
          have hdigit : c.toNat - '0'.toNat = d.toNat - '0'.toNat := by
            have hquotient := congrArg (· / 10 ^ b.length) hvalue
            simpa only [Nat.mul_add_div hpos, Nat.div_eq_of_lt hlta, Nat.div_eq_of_lt hltb,
              Nat.add_zero] using hquotient
          have hrest : Nat.ofDigitChars 10 a 0 = Nat.ofDigitChars 10 b 0 := by
            rw [hdigit] at hvalue
            exact Nat.add_left_cancel hvalue
          have hcd : c = d := by
            rw [← Char.toNat_inj, toNat_eq_of_digit hac.1, toNat_eq_of_digit hbd.1, hdigit]
          rw [hcd, ih ⟨hlength, hac.2, hrest⟩ ⟨rfl, hbd.2, rfl⟩]

theorem IsNumeral.lt {width n : Nat} {digits : List Char} (h : IsNumeral width n digits) :
    n < 10 ^ width := by
  rw [← h.value, ← h.length]
  exact ofDigitChars_lt h.ascii

theorem isNumeral_padded {width n : Nat} (hwidth : 0 < width) (h : n < 10 ^ width) :
    IsNumeral width n (padded width n) where
  length := by
    have hle := (Nat.length_toDigits_le_iff (by decide) hwidth).2 h
    simp only [padded, List.length_append, List.length_replicate]
    omega
  ascii c hc := by
    rcases List.mem_append.1 hc with hzero | hdigit
    · rw [List.eq_of_mem_replicate hzero]
      rfl
    · exact Nat.isDigit_of_mem_toDigits (by decide) (by decide) hdigit
  value := by
    rw [padded, Nat.ofDigitChars_append, Nat.ofDigitChars_replicate_zero]
    simp

/-- In one digit or more a number is written without zeros in front. -/
theorem padded_one (n : Nat) : padded 1 n = Nat.toDigits 10 n := by
  have hpos : 0 < (Nat.toDigits 10 n).length := List.length_pos_iff.2 Nat.toDigits_ne_nil
  rw [padded, Nat.sub_eq_zero_of_le hpos]
  rfl

/-- Four digits leave no room for zeros in front. -/
theorem padded_of_le {n : Nat} (h : 1000 ≤ n) : padded 1 n = padded 4 n := by
  have hlength : ¬ (Nat.toDigits 10 n).length ≤ 3 := by
    rw [Nat.length_toDigits_le_iff (by decide) (by decide)]
    omega
  rw [padded_one, padded, Nat.sub_eq_zero_of_le (by omega)]
  rfl

/-! ## Reading -/

theorem digitValue?_of_isDigit {c : Char} (h : c.isDigit = true) :
    Text.digitValue? c = some (c.toNat - '0'.toNat) := by
  have hlt := digit_lt h
  rw [Char.isDigit_iff_toNat] at h
  have hfirst : (fun r : Nat × Nat => decide (r.1 ≤ c.toNat) && decide (c.toNat ≤ r.2))
      (0x30, 0x39) = true :=
    Bool.and_eq_true_iff.2 ⟨decide_eq_true h.1, decide_eq_true h.2⟩
  have hfind : Text.decimalDigits.find?
      (fun r => decide (r.1 ≤ c.toNat) && decide (c.toNat ≤ r.2)) = some (0x30, 0x39) :=
    List.find?_cons_of_pos hfirst
  rw [Text.digitValue?, hfind]
  exact congrArg some (Nat.mod_eq_of_lt hlt)

theorem isDecimalDigit_of_isDigit {c : Char} (h : c.isDigit = true) :
    Text.isDecimalDigit c = true := by
  rw [Text.isDecimalDigit, digitValue?_of_isDigit h]
  rfl

section Reading

variable {width n : Nat} {digits : List Char}

theorem IsNumeral.takeWhile (h : IsNumeral width n digits) (rest : List Char) :
    ((digits ++ rest).take width).takeWhile Text.isDecimalDigit = digits := by
  rw [List.take_left' h.length, List.takeWhile_eq_self_iff]
  exact fun c hc => isDecimalDigit_of_isDigit (h.ascii c hc)

theorem foldl_digitValue? (h : ∀ c ∈ digits, c.isDigit = true) (n : Nat) :
    digits.foldl (fun n c => n * 10 + (Text.digitValue? c).getD 0) n =
      Nat.ofDigitChars 10 digits n := by
  induction digits generalizing n with
  | nil => rfl
  | cons c rest ih =>
      rw [List.forall_mem_cons] at h
      rw [List.foldl_cons, ih h.2, Nat.ofDigitChars_cons, digitValue?_of_isDigit h.1,
        Option.getD_some, Nat.mul_comm]

theorem readNumber_numeral (h : IsNumeral width n digits) (hwidth : 0 < width) (rest : List Char) :
    readNumber width (digits ++ rest) = some (n, rest) := by
  have hne : digits.isEmpty = false := by
    rw [List.isEmpty_eq_false_iff, ← List.length_pos_iff, h.length]
    exact hwidth
  simp only [readNumber, h.takeWhile, hne, foldl_digitValue? h.ascii, h.value]
  simp

theorem readExactly_numeral (h : IsNumeral width n digits) (hwidth : 0 < width)
    (rest : List Char) : readExactly width (digits ++ rest) = some (n, rest) := by
  rw [readExactly, h.takeWhile, if_pos h.length]
  exact readNumber_numeral h hwidth rest

/-- A number is not read in so many digits where there are fewer. -/
theorem readExactly_short {rest : List Char} (hlength : digits.length < width)
    (hrest : ∀ c ∈ rest.head?, Text.isDecimalDigit c = false) :
    readExactly width (digits ++ rest) = none := by
  have hle : (((digits ++ rest).take width).takeWhile Text.isDecimalDigit).length ≤
      digits.length := by
    rw [List.take_append, List.take_of_length_le hlength.le, List.takeWhile_append]
    have hnone : (rest.take (width - digits.length)).takeWhile Text.isDecimalDigit = [] := by
      cases rest with
      | nil => rw [List.take_nil, List.takeWhile_nil]
      | cons c rest =>
          have hpos : 0 < width - digits.length := by omega
          rw [List.take_cons hpos, List.takeWhile_cons_of_neg (by simp [hrest c rfl])]
    split
    · rw [hnone, List.append_nil]
    · exact (List.takeWhile_prefix _).length_le
  rw [readExactly, if_neg (by omega)]

end Reading

end Calendar

end Raml
