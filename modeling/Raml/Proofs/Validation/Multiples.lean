import Mathlib.Algebra.Group.Int.Defs
import Raml.Proofs.Number.Rounding
import Raml.Proofs.Parameter.Types

/-! # Multiples of an integer

A divisor of integers is compared in binary64 arithmetic: value and divisor are
rounded, and the remainder counts as none also when it is short of the divisor
by no more than a billionth of it. So the check is exact for divisors below a
billion as long as values are not rounded; above that it takes values that are
no multiples, and it cannot answer for integers without a binary64 number.
-/

namespace Raml

open Binary64

namespace Validation

/-! ## Tolerances -/

def toleranceUnits : Nat := 0x112e0be826d695 * Nat.pow 2 992

theorem relativeTolerance_eq : relativeTolerance = .finite false toleranceUnits := by
  decide +kernel

theorem absoluteTolerance_eq : absoluteTolerance = .finite false toleranceUnits := by
  decide +kernel

theorem four_toleranceUnits_le : 4 * toleranceUnits ≤ one := by
  decide +kernel

theorem nearest_toleranceUnits : nearest toleranceUnits = toleranceUnits := by
  decide +kernel

def slack (divisor : Nat) : Nat := nearest (toleranceUnits * divisor)

theorem slack_mono {m n : Nat} (h : m ≤ n) : slack m ≤ slack n :=
  nearest_mono (Nat.mul_le_mul_left _ h)

theorem slack_lt_nearest {n : Nat} (hn : 0 < n) : slack n < nearest n * one := by
  rw [← nearest_mul_one]
  have hunits : 0 < n * one := Nat.mul_pos hn Binary64.one_pos
  refine nearest_lt_nearest hunits ?_
  calc 4 * (toleranceUnits * n)
      = 4 * toleranceUnits * n := (Nat.mul_assoc _ _ _).symm
    _ ≤ one * n := Nat.mul_le_mul_right n four_toleranceUnits_le
    _ = n * one := Nat.mul_comm _ _

theorem slack_one : slack 1 = toleranceUnits := by
  rw [slack, Nat.mul_one, nearest_toleranceUnits]

/-- A billion is the first divisor whose neighbours are within its tolerance. -/
theorem slack_lt_one_iff (m : Nat) : slack m < one ↔ m < 10 ^ 9 := by
  have hbelow : slack (10 ^ 9 - 1) < one := by decide +kernel
  have hfrom : one ≤ slack (10 ^ 9) := by decide +kernel
  constructor
  · intro h
    by_contra hge
    exact absurd (Nat.le_trans hfrom (slack_mono (Nat.not_lt.1 hge))) (Nat.not_le.2 h)
  · intro h
    exact Nat.lt_of_le_of_lt (slack_mono (by omega)) hbelow

/-! ## Closeness of whole numbers -/

theorem isClose_of_ne {relative absolute : Binary64} {s t : Bool} {u v : Nat}
    (hne : signedUnits s u ≠ signedUnits t v) :
    isClose relative absolute (.finite s u) (.finite t v) =
      (!(mul relative (.finite t v)).abs.less (distance (.finite s u) (.finite t v)) ||
        !(mul relative (.finite s u)).abs.less (distance (.finite s u) (.finite t v)) ||
        !absolute.less (distance (.finite s u) (.finite t v))) := by
  have hsame : same (.finite s u) (.finite t v) = false := beq_eq_false_iff_ne.2 hne
  rw [isClose, hsame]
  rfl

theorem natAbs_signedUnits (s : Bool) (u : Nat) : (signedUnits s u).natAbs = u := by
  cases s <;> simp [signedUnits]

theorem less_finite (u v : Nat) : less (.finite false u) (.finite false v) = decide (u < v) := by
  simp [less, signedUnits]

theorem abs_mul_tolerance (s : Bool) {n : Nat} (hn : n < tooLarge) :
    (mul relativeTolerance (.finite s (n * one))).abs = .finite false (slack n) := by
  have hle : toleranceUnits * n ≤ n * one := by
    have := four_toleranceUnits_le
    rw [Nat.mul_comm n]
    exact Nat.mul_le_mul_right n (by omega)
  have hlt : nearest (toleranceUnits * n) < limit :=
    Nat.lt_of_le_of_lt (nearest_mono hle) ((nearest_mul_one_lt_limit_iff n).2 hn)
  rw [relativeTolerance_eq, mul_whole hlt]
  rfl

theorem distance_whole {s t : Bool} {u v d : Nat} (hd : d < tooLarge)
    (h : (signedUnits s u - signedUnits t v).natAbs = d * one) :
    distance (.finite s u) (.finite t v) = .finite false (nearest d * one) := by
  have hlt : nearest (signedUnits s u - signedUnits t v).natAbs < limit := by
    rw [h]
    exact (nearest_mul_one_lt_limit_iff d).2 hd
  rw [distance_eq hlt, h, nearest_mul_one]

/-- Two whole numbers that differ are close if their distance is within the tolerance of one of them
or of one. -/
theorem isClose_whole_iff {s t : Bool} {m n d : Nat} (hm : m < tooLarge) (hn : n < tooLarge)
    (hd : d < tooLarge) (hpos : 0 < d)
    (h : (signedUnits s (m * one) - signedUnits t (n * one)).natAbs = d * one) :
    isClose relativeTolerance absoluteTolerance (.finite s (m * one)) (.finite t (n * one)) = true ↔
      nearest d * one ≤ slack n ∨ nearest d * one ≤ slack m ∨ nearest d * one ≤ slack 1 := by
  have hne : signedUnits s (m * one) ≠ signedUnits t (n * one) := fun heq => by
    have hunits : 0 < d * one := Nat.mul_pos hpos Binary64.one_pos
    rw [heq, Int.sub_self, Int.natAbs_zero] at h
    omega
  rw [isClose_of_ne hne, distance_whole hd h, abs_mul_tolerance t hn, abs_mul_tolerance s hm,
    absoluteTolerance_eq, ← slack_one]
  simp only [less_finite, Bool.or_eq_true, Bool.not_eq_true', decide_eq_false_iff_not, Nat.not_lt,
    or_assoc]

/-- A whole number is close to zero only if it is zero. -/
theorem isClose_zero_iff (s : Bool) {rest : Nat} (hrest : rest < tooLarge) :
    isClose relativeTolerance absoluteTolerance (.finite s (rest * one)) (.finite false 0) = true ↔
      rest = 0 := by
  by_cases hzero : rest = 0
  · have hsame : same (.finite s 0) (.finite false 0) = true := by cases s <;> rfl
    rw [hzero, Nat.zero_mul, isClose, hsame, if_pos rfl]
    exact iff_of_true rfl rfl
  · have hpos : 1 ≤ rest := Nat.pos_of_ne_zero hzero
    have habs : (signedUnits s (rest * one) - signedUnits false (0 * one)).natAbs = rest * one := by
      have hnothing : signedUnits false (0 * one) = 0 := by rw [Nat.zero_mul]; rfl
      rw [hnothing, Int.sub_zero, natAbs_signedUnits]
    have hiff := isClose_whole_iff hrest (Nat.zero_lt_of_lt hrest) hrest hpos habs
    have hself : slack rest < nearest rest * one := slack_lt_nearest hpos
    have hone : slack 1 ≤ slack rest := slack_mono hpos
    have hnothing : slack 0 ≤ slack rest := slack_mono (Nat.zero_le _)
    rw [Nat.zero_mul] at hiff
    rw [hiff]
    omega

theorem isClose_divisor_iff {rest divisor : Nat} (hlt : rest < divisor)
    (hdivisor : divisor < tooLarge) :
    isClose relativeTolerance absoluteTolerance (.finite false (rest * one))
        (.finite false (divisor * one)) = true ↔
      nearest (divisor - rest) * one ≤ slack divisor := by
  have habs : (signedUnits false (rest * one) - signedUnits false (divisor * one)).natAbs =
      (divisor - rest) * one := by
    have hle : rest * one ≤ divisor * one := Nat.mul_le_mul_right one (Nat.le_of_lt hlt)
    rw [Nat.sub_mul]
    simp only [signedUnits, Bool.false_eq_true, if_false]
    omega
  rw [isClose_whole_iff (Nat.lt_trans hlt hdivisor) hdivisor
    (Nat.lt_of_le_of_lt (Nat.sub_le _ _) hdivisor) (Nat.sub_pos_of_lt hlt) habs]
  -- The tolerance of the divisor is the largest of the three.
  have hrest : slack rest ≤ slack divisor := slack_mono (Nat.le_of_lt hlt)
  have hone : slack 1 ≤ slack divisor := slack_mono (by omega)
  omega

/-! ## Divisors of integers -/

/-- Whether a divisor is taken to go into an integer: rounded both, the remainder is zero or short
of the divisor by no more than its tolerance. -/
def GoesInto (m v : Int) : Prop :=
  let divisor := nearest m.natAbs
  let rest := nearest v.natAbs % divisor
  rest = 0 ∨ nearest (divisor - rest) * one ≤ slack divisor

instance (m v : Int) : Decidable (GoesInto m v) := inferInstanceAs (Decidable (_ ∨ _))

/-- Whether an integer has no finite binary64 number near it. -/
def IsTooLarge (v : Int) : Prop := tooLarge ≤ v.natAbs

instance (v : Int) : Decidable (IsTooLarge v) := inferInstanceAs (Decidable (_ ≤ _))

theorem toBinary64?_int (v : Int) :
    (Number.int v).toBinary64? =
      if IsTooLarge v then none else some (.finite (v < 0) (nearest v.natAbs * one)) := by
  rw [Number.toBinary64?, ofInt?_eq]
  by_cases hlt : v.natAbs < tooLarge
  · have hv : ¬ IsTooLarge v := Nat.not_le.2 hlt
    rw [if_pos hlt, if_neg hv]
  · have hv : IsTooLarge v := Nat.not_lt.1 hlt
    rw [if_neg hlt, if_pos hv]

theorem divides_eq_overflow {divisor n : Number}
    (h : n.toBinary64? = none ∨ divisor.toBinary64? = none) :
    divides divisor n = .error .overflow := by
  unfold divides
  obtain hn | hdivisor := h
  · rw [hn]
  · rw [hdivisor]
    cases n.toBinary64? <;> rfl

theorem divides_eq_ok {divisor n : Number} {x m rest : Binary64} (hn : n.toBinary64? = some x)
    (hdivisor : divisor.toBinary64? = some m) (hrest : x.remainder? m = some rest) :
    divides divisor n =
      .ok (isClose relativeTolerance absoluteTolerance rest (.finite false 0) ||
        isClose relativeTolerance absoluteTolerance rest.abs m.abs) := by
  unfold divides
  simp only [hn, hdivisor, hrest]

theorem divides_int {m : Int} (hm : m ≠ 0) (v : Int) :
    divides (.int m) (.int v) =
      if IsTooLarge v ∨ IsTooLarge m then .error .overflow else .ok (decide (GoesInto m v)) := by
  have hvalue := toBinary64?_int v
  have hdivisor := toBinary64?_int m
  by_cases hlarge : IsTooLarge v ∨ IsTooLarge m
  · rw [if_pos hlarge]
    exact divides_eq_overflow
      (hlarge.imp (fun h => hvalue.trans (if_pos h)) fun h => hdivisor.trans (if_pos h))
  · obtain ⟨hv, hm'⟩ := not_or.1 hlarge
    rw [if_neg hv] at hvalue
    rw [if_neg hm'] at hdivisor
    have hpos : 0 < nearest m.natAbs := nearest_pos (Int.natAbs_pos.2 hm)
    have hlt : nearest v.natAbs % nearest m.natAbs < nearest m.natAbs := Nat.mod_lt _ hpos
    have hfits : nearest m.natAbs < tooLarge := by
      rw [← nearest_lt_iff, nearest_nearest, nearest_lt_iff]
      exact Nat.not_le.1 hm'
    have hunits : nearest m.natAbs * one ≠ 0 := (Nat.mul_pos hpos Binary64.one_pos).ne'
    have hrest : (Binary64.finite (v < 0) (nearest v.natAbs * one)).remainder?
        (.finite (m < 0) (nearest m.natAbs * one)) =
          some (.finite (v < 0) (nearest v.natAbs % nearest m.natAbs * one)) := by
      rw [remainder?, if_neg hunits, Nat.mul_mod_mul_right]
    have hiff : (isClose relativeTolerance absoluteTolerance
          (.finite (v < 0) (nearest v.natAbs % nearest m.natAbs * one)) (.finite false 0) ||
        isClose relativeTolerance absoluteTolerance
          (.finite false (nearest v.natAbs % nearest m.natAbs * one))
          (.finite false (nearest m.natAbs * one))) = decide (GoesInto m v) := by
      rw [Bool.eq_iff_iff, Bool.or_eq_true, isClose_zero_iff _ (Nat.lt_trans hlt hfits),
        isClose_divisor_iff hlt hfits, decide_eq_true_iff]
      rfl
    rw [if_neg hlarge, divides_eq_ok hvalue hdivisor hrest]
    exact congrArg Except.ok hiff

/-- Below a billion a divisor goes into the multiples only, as long as these are not rounded. -/
theorem goesInto_iff_dvd {m v : Int} (hm : m ≠ 0) (hdivisor : m.natAbs < 10 ^ 9)
    (hv : v.natAbs ≤ 2 ^ 53) : GoesInto m v ↔ m ∣ v := by
  have hpos : 0 < m.natAbs := Int.natAbs_pos.2 hm
  have hlt : v.natAbs % m.natAbs < m.natAbs := Nat.mod_lt _ hpos
  have hexact : nearest (m.natAbs - v.natAbs % m.natAbs) = m.natAbs - v.natAbs % m.natAbs :=
    nearest_of_le (by omega)
  have hshort : slack m.natAbs < one := (slack_lt_one_iff _).2 hdivisor
  have hfar : one ≤ (m.natAbs - v.natAbs % m.natAbs) * one := Nat.le_mul_of_pos_left one (by omega)
  rw [GoesInto, nearest_of_le (by omega : m.natAbs ≤ 2 ^ 53), nearest_of_le hv, hexact,
    ← Int.natAbs_dvd_natAbs, Nat.dvd_iff_mod_eq_zero]
  exact or_iff_left (Nat.not_le.2 (Nat.lt_of_lt_of_le hshort hfar))

/-- From a billion on a divisor is taken to go into the number in front of it. -/
theorem goesInto_pred {m : Int} (hdivisor : 10 ^ 9 ≤ m.natAbs) (hexact : m.natAbs ≤ 2 ^ 53) :
    GoesInto m (m.natAbs - 1) := by
  have hv : (↑m.natAbs - 1 : Int).natAbs = m.natAbs - 1 := by omega
  have hrest : (m.natAbs - 1) % m.natAbs = m.natAbs - 1 := Nat.mod_eq_of_lt (by omega)
  have hgap : m.natAbs - (m.natAbs - 1) = 1 := by omega
  have hslack : one ≤ slack m.natAbs := by
    rw [← Nat.not_lt, slack_lt_one_iff]
    omega
  refine .inr ?_
  rw [hv, nearest_of_le hexact, nearest_of_le (by omega : m.natAbs - 1 ≤ 2 ^ 53), hrest, hgap,
    nearest_of_le (by omega : 1 ≤ 2 ^ 53), Nat.one_mul]
  exact hslack

end Validation

/-! ## Types of multiples -/

namespace DataType

open Validation

/-- A number or integer type that asks for multiples of an integer and for nothing else. -/
inductive OnlyMultiples (m : Int) : DataType → Prop
  | number {c : Common} (enum : c.enum = none) :
      OnlyMultiples m (.scalar c (.number ⟨none, none, some (.int m), none⟩))
  | integer {c : Common} (enum : c.enum = none) :
      OnlyMultiples m (.scalar c (.integer ⟨none, none, some (.int m), none⟩))

/-- A declaration of numbers or integers whose only facet is a divisor makes such a type. -/
theorem onlyMultiples_of_build {bound : Bool} {name type : String} {d : Mapping} {t : DataType}
    {m : Int} (hword : type = "number" ∨ type = "integer")
    (htype : d.field? "type" = some (.text type)) (hm : d.field? "multipleOf" = some (.int m))
    (hothers : ∀ key ∈ ["minimum", "maximum", "format", "enum"], d.field? key = none)
    (h : build bound name (.map d) = .ok t) : t.OnlyMultiples m := by
  have habsent : ∀ {α : Type} (kind : Value → Option α) (key : String),
      key ∈ ["minimum", "maximum", "format", "enum"] →
        Field.readOptional d key key kind = .ok none := fun kind key hkey => by
    simp only [Field.readOptional, Field.read, hothers key hkey]
  have hdivisor : Field.readOptional d "multipleOf" "multiple_of" Field.number? =
      .ok (some (.int m)) := by
    simp only [Field.readOptional, Field.read, hm]
    rfl
  have hfacets : NumberFacets.read d = .ok ⟨none, none, some (.int m), none⟩ := by
    rw [NumberFacets.read, habsent _ _ (by simp), habsent _ _ (by simp), habsent _ _ (by simp),
      hdivisor]
    rfl
  obtain rfl | rfl := hword
  · have hnumber : ("number", ScalarWord.number) ∈ scalarNames := by decide
    obtain ⟨c, s, rfl, hs, henum⟩ := build_scalarName hnumber htype h
    rw [readScalar, hfacets] at hs
    obtain rfl := Checked.ok.inj hs
    exact .number (Checked.ok.inj (henum.symm.trans (habsent _ _ (by simp))))
  · have hinteger : ("integer", ScalarWord.integer) ∈ scalarNames := by decide
    obtain ⟨c, s, rfl, hs, henum⟩ := build_scalarName hinteger htype h
    rw [readScalar, hfacets] at hs
    obtain rfl := Checked.ok.inj hs
    exact .integer (Checked.ok.inj (henum.symm.trans (habsent _ _ (by simp))))

theorem OnlyMultiples.validate_int {m : Int} (hm : m ≠ 0) {t : DataType} (ht : t.OnlyMultiples m)
    (r : Registry) (v : Int) :
    t.validate r (.int v) =
      if IsTooLarge v ∨ IsTooLarge m then .error .overflow
      else require t.name (GoesInto m v) (.multipleOf (.int m)) := by
  have hzero : ¬ (Number.int m).isZero = true := fun h => hm (eq_of_beq h)
  have hmultiple : ∀ subject, requireMultiple subject (some (.int m)) (.int v) =
      if IsTooLarge v ∨ IsTooLarge m then .error .overflow
      else require subject (GoesInto m v) (.multipleOf (.int m)) := fun subject => by
    rw [show requireMultiple subject (some (.int m)) (.int v) = _ from if_neg hzero, divides_int hm]
    split <;> rfl
  have hchecked : ∀ c : Common, c.enum = none →
      checkBounds c.name ⟨none, none, some (.int m), none⟩ (.int v) >>=
          (fun _ => requireMember c (.int v)) =
        if IsTooLarge v ∨ IsTooLarge m then .error .overflow
        else require c.name (GoesInto m v) (.multipleOf (.int m)) := fun c henum => by
    rw [← hmultiple, requireMember, henum]
    show (requireMultiple c.name (some (.int m)) (.int v) >>= fun _ => .ok ()) = _
    cases requireMultiple c.name (some (.int m)) (.int v) <;> rfl
  cases ht with
  | number henum =>
      rw [validate_scalar]
      exact hchecked _ henum
  | integer henum =>
      rw [validate_scalar]
      exact hchecked _ henum

/-- A divisor is told by the rounded numbers: the type takes an integer exactly when the rounded
divisor is taken to go into the rounded integer, reports a violation otherwise, and cannot answer
when one of the two is too large for a binary64 number. That is divisibility for a divisor below a
billion and an integer up to 2⁵³; any larger divisor that is not rounded takes its neighbour. -/
theorem OnlyMultiples.validate_rounded {m : Int} (hm : m ≠ 0) {t : DataType}
    (ht : t.OnlyMultiples m) (r : Registry) (v : Int) :
    (IsTooLarge v ∨ IsTooLarge m → t.validate r (.int v) = .error .overflow) ∧
      (¬ IsTooLarge v → ¬ IsTooLarge m →
        t.validate r (.int v) =
          if GoesInto m v then .ok () else .error (.violation t.name (.multipleOf (.int m)))) ∧
      (m.natAbs < 10 ^ 9 → v.natAbs ≤ 2 ^ 53 →
        t.validate r (.int v) =
          if m ∣ v then .ok () else .error (.violation t.name (.multipleOf (.int m)))) ∧
      (10 ^ 9 ≤ m.natAbs → m.natAbs ≤ 2 ^ 53 → t.validate r (.int (m.natAbs - 1)) = .ok ()) := by
  have hfits : ∀ w : Int, w.natAbs ≤ 2 ^ 53 → ¬ IsTooLarge w := fun w hw hlarge => by
    have hbound : 2 ^ 53 < tooLarge := by decide +kernel
    exact absurd (Nat.le_trans hlarge hw) (Nat.not_le.2 hbound)
  have hchecked : ∀ w : Int, ¬ IsTooLarge w → ¬ IsTooLarge m →
      t.validate r (.int w) =
        if GoesInto m w then .ok () else .error (.violation t.name (.multipleOf (.int m))) :=
    fun w hw hm' => by
      rw [ht.validate_int hm, if_neg (not_or.2 ⟨hw, hm'⟩), require]
      simp only [decide_eq_true_eq]
  refine ⟨fun hlarge => ?_, hchecked v, fun hdivisor hv => ?_, fun hdivisor hexact => ?_⟩
  · rw [ht.validate_int hm, if_pos hlarge]
  · rw [hchecked v (hfits v hv) (hfits m (by omega))]
    simp only [goesInto_iff_dvd hm hdivisor hv]
  · rw [hchecked _ (hfits _ (by omega)) (hfits m hexact), if_pos (goesInto_pred hdivisor hexact)]

def multiplesFacets (m : Int) : Mapping :=
  [(.text "type", .text "integer"), (.text "multipleOf", .int m)]

/-- The multiples of three are told up to 2⁵³. -/
theorem validate_rounded_three :
    ∃ t, build true "x" (.map (multiplesFacets 3)) = .ok t ∧ ∀ r : Registry,
      t.validate r (.int (2 ^ 53 - 2)) = .ok () ∧
        t.validate r (.int (1 - 2 ^ 53)) = .error (.violation "x" (.multipleOf (.int 3))) := by
  have hbuild : build true "x" (.map (multiplesFacets 3)) = .ok _ := Except.eq_ok_get rfl
  have ht := onlyMultiples_of_build (.inr rfl) rfl rfl (by decide) hbuild
  refine ⟨_, hbuild, fun r => ⟨?_, ?_⟩⟩
  · exact ((OnlyMultiples.validate_rounded (by decide) ht r (2 ^ 53 - 2)).2.2.1 (by decide)
      (by decide)).trans (if_pos (by decide))
  · exact ((OnlyMultiples.validate_rounded (by decide) ht r (1 - 2 ^ 53)).2.2.1 (by decide)
      (by decide)).trans (if_neg (by decide))

/-- An odd integer is taken for a multiple of two once it is rounded. -/
theorem not_always_exact :
    ¬ ∀ (m : Int) (t : DataType), m ≠ 0 → t.OnlyMultiples m → ∀ (r : Registry) (v : Int),
        (t.validate r (.int v) = .ok () ↔ m ∣ v) ∧
          (¬ m ∣ v → ∃ subject c, t.validate r (.int v) = .error (.violation subject c)) := by
  intro h
  have hbuild : build true "x" (.map (multiplesFacets 2)) = .ok _ := Except.eq_ok_get rfl
  have ht := onlyMultiples_of_build (.inr rfl) rfl rfl (by decide) hbuild
  have hodd := (h 2 _ (by decide) ht [] (2 ^ 53 + 1)).1.1
  rw [ht.validate_int (by decide), if_neg (by decide +kernel), require,
    if_pos (by decide +kernel)] at hodd
  exact absurd (hodd rfl) (by decide)

end DataType

end Raml
