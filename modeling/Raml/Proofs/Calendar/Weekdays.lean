import Mathlib.Order.Nat
import Raml.Calendar.Date

/-! # Days in a row

The calendar is a row of days, each followed by the next, and the days of the week follow one
another along it. The number of a day counts the days up to it, so the day of the week that is
computed from that number is the one that the day falls on.
-/

namespace Raml

namespace Date

/-! ## The next day -/

def next (d : Date) : Date :=
  if d.day < daysInMonth d.year d.month then { d with day := d.day + 1 }
  else if d.month < 12 then ⟨d.year, d.month + 1, 1⟩
  else ⟨d.year + 1, 1, 1⟩

/-- Whether the triple names a day of the year 1 or of a later one. -/
structure IsDay (d : Date) : Prop where
  year : 1 ≤ d.year
  month_pos : 1 ≤ d.month
  month_le : d.month ≤ 12
  day_pos : 1 ≤ d.day
  day_le : d.day ≤ daysInMonth d.year d.month

def first : Date := ⟨1, 1, 1⟩

theorem IsValid.isDay {d : Date} (h : d.IsValid) : d.IsDay :=
  ⟨h.1, h.2.2.1, h.2.2.2.1, h.2.2.2.2.1, h.2.2.2.2.2⟩

theorem daysInMonth_pos (year month : Nat) : 0 < daysInMonth year month := by
  unfold daysInMonth
  split
  · split <;> decide
  all_goals decide

theorem daysInMonth_le (year month : Nat) : daysInMonth year month ≤ 31 := by
  unfold daysInMonth
  split
  · split <;> decide
  all_goals decide

theorem IsDay.next {d : Date} (h : d.IsDay) : d.next.IsDay := by
  have hpos := daysInMonth_pos
  unfold Date.next
  split
  · next hday => exact ⟨h.year, h.month_pos, h.month_le, Nat.succ_pos _, hday⟩
  · split
    · next hmonth => exact ⟨h.year, Nat.succ_pos _, hmonth, le_rfl, hpos _ _⟩
    · exact ⟨Nat.succ_pos _, le_rfl, Nat.le_add_left 1 11, le_rfl, hpos _ _⟩

theorem IsDay.exists_previous {d : Date} (h : d.IsDay) (hfirst : d ≠ first) :
    ∃ e : Date, e.IsDay ∧ e.next = d := by
  obtain ⟨year, month, day⟩ := d
  have hpos := daysInMonth_pos
  by_cases hday : 1 < day
  · refine ⟨⟨year, month, day - 1⟩, ⟨h.year, h.month_pos, h.month_le, ?_, ?_⟩, ?_⟩
    · exact Nat.le_sub_one_of_lt hday
    · exact (Nat.sub_le day 1).trans h.day_le
    · have hle : day ≤ daysInMonth year month := h.day_le
      have hlt : day - 1 < daysInMonth year month := by omega
      simp only [Date.next, if_pos hlt, Nat.sub_add_cancel hday.le]
  · obtain rfl : day = 1 := le_antisymm (not_lt.1 hday) h.day_pos
    by_cases hmonth : 1 < month
    · refine ⟨⟨year, month - 1, daysInMonth year (month - 1)⟩,
        ⟨h.year, Nat.le_sub_one_of_lt hmonth, (Nat.sub_le month 1).trans h.month_le, hpos _ _,
          le_rfl⟩, ?_⟩
      have hle : month ≤ 12 := h.month_le
      have hlt : month - 1 < 12 := by omega
      simp only [Date.next, lt_irrefl, if_false, if_pos hlt, Nat.sub_add_cancel hmonth.le]
    · obtain rfl : month = 1 := le_antisymm (not_lt.1 hmonth) h.month_pos
      have hyear : 1 < year := lt_of_le_of_ne h.year fun heq => hfirst (heq ▸ rfl)
      refine ⟨⟨year - 1, 12, daysInMonth (year - 1) 12⟩,
        ⟨Nat.le_sub_one_of_lt hyear, Nat.le_add_left 1 11, le_rfl, hpos (year - 1) 12, le_rfl⟩, ?_⟩
      simp only [Date.next, lt_irrefl, if_false, Nat.sub_add_cancel hyear.le]

/-! ## Numbers of days -/

theorem daysBeforeMonth_succ (year month : Nat) :
    daysBeforeMonth year (month + 2) = daysBeforeMonth year (month + 1) +
      daysInMonth year (month + 1) := by
  simp only [daysBeforeMonth, Nat.add_sub_cancel, Nat.add_succ_sub_one, List.range_succ,
    List.foldl_append, List.foldl_cons, List.foldl_nil]

theorem daysInYear (year : Nat) :
    daysBeforeMonth year 12 + daysInMonth year 12 = if isLeapYear year then 366 else 365 := by
  show (List.range 11).foldl _ 0 + 31 = _
  simp only [List.range_succ, List.range_zero, List.nil_append, List.foldl_append, List.foldl_cons,
    List.foldl_nil, daysInMonth]
  split <;> rfl

theorem isLeapYear_iff (year : Nat) :
    isLeapYear year = true ↔ 4 ∣ year ∧ (¬ 100 ∣ year ∨ 400 ∣ year) := by
  simp [isLeapYear, Nat.dvd_iff_mod_eq_zero]

theorem daysBeforeYear_succ (y : Nat) :
    y * 365 + y / 4 - y / 100 + y / 400 + (if isLeapYear (y + 1) then 366 else 365) =
      (y + 1) * 365 + (y + 1) / 4 - (y + 1) / 100 + (y + 1) / 400 := by
  have hcentury : 100 ∣ y + 1 → 4 ∣ y + 1 := Nat.dvd_trans (by decide)
  have hcycle : 400 ∣ y + 1 → 100 ∣ y + 1 := Nat.dvd_trans (by decide)
  have hlt : y / 100 ≤ y := Nat.div_le_self y 100
  simp only [Nat.succ_div, isLeapYear_iff]
  by_cases h400 : 400 ∣ y + 1
  · simp only [h400, hcycle h400, hcentury (hcycle h400), or_true, and_true, if_true]
    omega
  · by_cases h100 : 100 ∣ y + 1
    · simp only [h400, h100, hcentury h100, not_true, or_false, and_false, if_true, if_false]
      omega
    · simp only [h400, h100, not_false_iff, true_or, and_true, if_false]
      split <;> omega

theorem ordinal_next {d : Date} (h : d.IsDay) : d.next.ordinal = d.ordinal + 1 := by
  obtain ⟨year, month, day⟩ := d
  obtain ⟨year, rfl⟩ := Nat.exists_eq_add_of_le' h.year
  unfold Date.next
  by_cases hday : day < daysInMonth (year + 1) month
  · rw [if_pos hday]
    rfl
  · have hlast : day = daysInMonth (year + 1) month := le_antisymm h.day_le (not_lt.1 hday)
    rw [if_neg hday]
    by_cases hmonth : month < 12
    · obtain ⟨month, rfl⟩ := Nat.exists_eq_add_of_le' h.month_pos
      rw [if_pos hmonth]
      simp only [ordinal, hlast, daysBeforeMonth_succ]
      omega
    · have hend : month = 12 := le_antisymm h.month_le (not_lt.1 hmonth)
      have hdays := daysInYear (year + 1)
      have hyear := daysBeforeYear_succ year
      have hzero : daysBeforeMonth (year + 1 + 1) 1 = 0 := rfl
      rw [if_neg hmonth]
      simp only [ordinal, Nat.add_sub_cancel, hlast, hend, hzero]
      rw [Nat.add_zero, ← hyear, ← hdays, ← Nat.add_assoc]

/-! ## Days of the week -/

/-- The day of the week that a day falls on, 0 for Monday to 6 for Sunday: the first day of the
calendar is a Monday, and from day to day the week goes on. -/
inductive FallsOn : Date → Nat → Prop
  | first : FallsOn first 0
  | next {d : Date} {w : Nat} : FallsOn d w → FallsOn d.next ((w + 1) % 7)

theorem FallsOn.isDay {d : Date} {w : Nat} (h : FallsOn d w) : d.IsDay := by
  induction h with
  | first => exact ⟨by decide, by decide, by decide, by decide, by decide⟩
  | next _ ih => exact ih.next

theorem weekday_next {d : Date} (h : d.IsDay) : d.next.weekday = (d.weekday + 1) % 7 := by
  simp only [weekday, ordinal_next h]
  omega

theorem FallsOn.eq_weekday {d : Date} {w : Nat} (h : FallsOn d w) : w = d.weekday := by
  induction h with
  | first => decide
  | next hd ih => rw [weekday_next hd.isDay, ih]

theorem IsDay.ordinal_pos {d : Date} (h : d.IsDay) : 0 < d.ordinal :=
  Nat.lt_of_lt_of_le h.day_pos (Nat.le_add_left _ _)

theorem IsDay.fallsOn_weekday {d : Date} (h : d.IsDay) : FallsOn d d.weekday := by
  -- the induction is on the number of the day
  induction hn : d.ordinal generalizing d with
  | zero => exact absurd hn h.ordinal_pos.ne'
  | succ n ih =>
      by_cases hfirst : d = first
      · rw [hfirst]
        exact .first
      · obtain ⟨e, he, rfl⟩ := h.exists_previous hfirst
        rw [ordinal_next he] at hn
        rw [weekday_next he]
        exact (ih he (Nat.succ.inj hn)).next

/-- The first of January 2000 was a Saturday. -/
example : (⟨2000, 1, 1⟩ : Date).weekday = 5 := by decide

end Date

end Raml
