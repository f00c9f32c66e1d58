import Mathlib.Data.List.Basic
import Raml.Proofs.Calendar.TemporalTexts

/-! # Timestamps

A timestamp is a date, a time of day and the distance of its clock from
universal time. The distance is read in many spellings and written in one: hours
and minutes, and behind them seconds and millionths of a second where it has
any. So a timestamp conforms if its distance is written that way, and `Z` in its
place stands for no distance at all. Of the spellings that conform, the usual
form of a timestamp does not know those with seconds.
-/

namespace Raml

namespace Calendar

/-! ## Offsets -/

def offsetSign (isWest : Bool) : Char := if isWest then '-' else '+'

structure IsOffsetOf (offset : Int) (isWest : Bool) (hour minute second micro : Nat) : Prop where
  sign : isWest = decide (offset < 0)
  size : offset.natAbs = ((hour * 60 + minute) * 60 + second) * Instant.oneSecond + micro
  minute : minute < 60
  second : second < 60
  micro : micro < Instant.oneSecond

theorem exists_isOffsetOf (offset : Int) :
    ∃ isWest hour minute second micro, IsOffsetOf offset isWest hour minute second micro := by
  refine ⟨decide (offset < 0), offset.natAbs / Instant.oneSecond / 60 / 60,
    offset.natAbs / Instant.oneSecond / 60 % 60, offset.natAbs / Instant.oneSecond % 60,
    offset.natAbs % Instant.oneSecond, rfl, ?_, Nat.mod_lt _ (by decide),
    Nat.mod_lt _ (by decide), Nat.mod_lt _ (by decide)⟩
  simp only [Instant.oneSecond]
  omega

/-- An offset of less than nothing is one to the west, and nothing is not. -/
theorem exists_offset {isWest : Bool} {hour minute second micro : Nat} (hminute : minute < 60)
    (hsecond : second < 60) (hmicro : micro < Instant.oneSecond)
    (hzero : isWest = true → 0 < hour + minute + second + micro) :
    ∃ offset, IsOffsetOf offset isWest hour minute second micro := by
  have hone : Instant.oneSecond = 1000000 := rfl
  cases isWest with
  | false =>
      refine ⟨(((hour * 60 + minute) * 60 + second) * Instant.oneSecond + micro : Nat), ?_,
        Int.natAbs_natCast _, hminute, hsecond, hmicro⟩
      exact (decide_eq_false (not_lt.2 (Int.natCast_nonneg _))).symm
  | true =>
      have hpos := hzero rfl
      refine ⟨-(((hour * 60 + minute) * 60 + second) * Instant.oneSecond + micro : Nat), ?_,
        by rw [Int.natAbs_neg, Int.natAbs_natCast], hminute, hsecond, hmicro⟩
      refine (decide_eq_true ?_).symm
      rw [hone]
      omega

section Offsets

variable {offset : Int} {isWest : Bool} {hour minute second micro : Nat}

theorem IsOffsetOf.hour_lt (h : IsOffsetOf offset isWest hour minute second micro)
    (hday : offset.natAbs < 24 * 60 * 60 * Instant.oneSecond) : hour < 24 := by
  have hsize := h.size
  simp only [Instant.oneSecond] at hsize hday
  omega

theorem IsOffsetOf.lt_day (h : IsOffsetOf offset isWest hour minute second micro)
    (hhour : hour < 24) : offset.natAbs < 24 * 60 * 60 * Instant.oneSecond := by
  have hsize := h.size
  have hminute := h.minute
  have hsecond := h.second
  have hmicro := h.micro
  simp only [Instant.oneSecond] at hsize hmicro ⊢
  omega

theorem IsOffsetOf.pos (h : IsOffsetOf offset isWest hour minute second micro)
    (hwest : isWest = true) : 0 < hour + minute + second + micro := by
  have hneg : offset < 0 := of_decide_eq_true (h.sign.symm.trans hwest)
  have hsize := h.size
  simp only [Instant.oneSecond] at hsize
  omega

theorem IsOffsetOf.write (h : IsOffsetOf offset isWest hour minute second micro) :
    writeOffset offset = offsetSign isWest :: (padded 2 hour ++ ':' :: padded 2 minute ++
      (if second = 0 ∧ micro = 0 then [] else ':' :: padded 2 second) ++
      (if micro = 0 then [] else '.' :: padded 6 micro)) := by
  have hsize := h.size
  have hminute := h.minute
  have hsecond := h.second
  have hmicro := h.micro
  have hmicros : offset.natAbs % Instant.oneSecond = micro := by
    simp only [Instant.oneSecond] at hsize hmicro ⊢
    omega
  have hseconds : offset.natAbs / Instant.oneSecond = (hour * 60 + minute) * 60 + second := by
    simp only [Instant.oneSecond] at hsize hmicro ⊢
    omega
  have hrest : ((hour * 60 + minute) * 60 + second) % 60 = second := by omega
  have hminutes : ((hour * 60 + minute) * 60 + second) / 60 = hour * 60 + minute := by omega
  have hlast : (hour * 60 + minute) % 60 = minute := by omega
  have hfirst : (hour * 60 + minute) / 60 = hour := by omega
  simp only [writeOffset, hmicros, hseconds, hrest, hminutes, hlast, hfirst, h.sign, offsetSign,
    decide_eq_true_eq, List.cons_append]

theorem readOffsetSize_write (hhour : hour < 24) (hminute : minute < 60) (hsecond : second < 60)
    (hmicro : micro < Instant.oneSecond) :
    readOffsetSize (padded 2 hour ++ ':' :: padded 2 minute ++
      (if second = 0 ∧ micro = 0 then [] else ':' :: padded 2 second) ++
      (if micro = 0 then [] else '.' :: padded 6 micro)) =
        some (((hour * 60 + minute) * 60 + second) * Instant.oneSecond + micro, []) := by
  have htwo : ∀ {n : Nat}, n < 60 → ∀ rest, readExactly 2 (padded 2 n ++ rest) = some (n, rest) :=
    fun hn => readExactly_numeral (isNumeral_padded (by decide) (by omega)) (by decide)
  have hmark : ∀ rest, skipMark ':' (':' :: rest) = rest := fun rest => by simp [skipMark]
  have hnothing : readExactly 2 (skipMark ':' []) = none := rfl
  have hfraction : readFraction (if micro = 0 then [] else '.' :: padded 6 micro) =
      some (micro, []) := by
    have hnumeral : IsNumeral 6 micro (padded 6 micro) := isNumeral_padded (by decide) hmicro
    have hread := readNumber_numeral hnumeral (by decide) []
    have htake := hnumeral.takeWhile []
    rw [List.append_nil] at hread htake
    by_cases hzero : micro = 0
    · rw [if_pos hzero, hzero]
      rfl
    · simp [hzero, readFraction, hread, htake, hnumeral.length]
  rw [List.append_assoc, List.append_assoc, List.cons_append]
  simp only [readOffsetSize, htwo (Nat.lt_trans hhour (by decide)), hmark, htwo hminute,
    Option.bind_eq_bind, Option.bind_some, not_le.2 hminute, if_false]
  by_cases hwhole : second = 0 ∧ micro = 0
  · simp [hwhole, hnothing]
  · simp [hwhole, hmark, htwo hsecond, hfraction, hsecond]

theorem IsOffsetOf.read (h : IsOffsetOf offset isWest hour minute second micro)
    (hhour : hour < 24) : readOffset (writeOffset offset) = some (offset, []) := by
  have hread := readOffsetSize_write hhour h.minute h.second h.micro
  rw [← h.size] at hread
  have hsign := h.sign
  rw [h.write]
  cases isWest with
  | false =>
      have hpos : 0 ≤ offset := not_lt.1 (of_decide_eq_false hsign.symm)
      simp only [offsetSign, readOffset, hread, Bool.false_eq_true, if_false, Option.map_some]
      rw [Int.natAbs_of_nonneg hpos]
  | true =>
      have hneg : offset < 0 := of_decide_eq_true hsign.symm
      simp only [offsetSign, readOffset, hread, if_true, Option.map_some]
      rw [Int.ofNat_natAbs_of_nonpos hneg.le, Int.neg_neg]

end Offsets

/-! ## Forms of offsets -/

/-- Whether a text is a sign and `HH:MM`. -/
def IsMinuteOffset (isWest : Bool) (hour minute : Nat) (cs : List Char) : Prop :=
  hour < 24 ∧ minute < 60 ∧ ∃ hh mm, IsNumeral 2 hour hh ∧ IsNumeral 2 minute mm ∧
    cs = offsetSign isWest :: (hh ++ ':' :: mm)

/-- Whether a text is a sign and `HH:MM:SS`, with seconds other than zero or with six digits other
than zero for a fraction of a second. -/
inductive IsFinerOffset : List Char → Prop
  | seconds {isWest : Bool} {hour minute second : Nat} {time : List Char}
      (isTime : IsTimeText hour minute second time) (pos : 0 < second) :
      IsFinerOffset (offsetSign isWest :: time)
  | fraction {isWest : Bool} {hour minute second micro : Nat} {time digits : List Char}
      (isTime : IsTimeText hour minute second time) (isFraction : IsNumeral 6 micro digits)
      (pos : 0 < micro) : IsFinerOffset (offsetSign isWest :: (time ++ '.' :: digits))

/-- Whether a text is an offset as it is written: with a plus sign if it is zero, and with nothing
behind the minutes if there are no seconds. -/
def IsOffsetText (cs : List Char) : Prop :=
  (∃ isWest hour minute, (isWest = true → 0 < hour + minute) ∧
    IsMinuteOffset isWest hour minute cs) ∨ IsFinerOffset cs

theorem isOffsetText_iff (cs : List Char) : IsOffsetText cs ↔
    ∃ offset : Int, offset.natAbs < 24 * 60 * 60 * Instant.oneSecond ∧ writeOffset offset = cs := by
  have htwo : ∀ {n : Nat}, n < 60 → IsNumeral 2 n (padded 2 n) := fun hn =>
    isNumeral_padded (by decide) (by omega)
  have hday : ∀ {hour : Nat}, hour < 24 → hour < 60 := fun h => h.trans (by decide)
  have hone : 0 < Instant.oneSecond := by decide
  constructor
  · -- the parts tell the offset, and the numerals that stand for them are the ones written
    intro h
    rcases h with ⟨isWest, hour, minute, hzero, hhour, hminute, hh, mm, hhh, hmm, rfl⟩ | hfiner
    · obtain ⟨offset, hoffset⟩ := exists_offset hminute (by decide : 0 < 60) hone hzero
      refine ⟨offset, hoffset.lt_day hhour, ?_⟩
      rw [hoffset.write, hhh.unique (htwo (hday hhour)), hmm.unique (htwo hminute)]
      simp
    · cases hfiner with
      | @seconds isWest _ _ _ _ isTime pos =>
          obtain ⟨hhour, hminute, hsecond, hh, mm, ss, hhh, hmm, hss, rfl⟩ := isTime
          obtain ⟨offset, hoffset⟩ := exists_offset hminute hsecond hone
            fun _ : isWest = true => Nat.lt_of_lt_of_le pos (Nat.le_add_left _ _)
          refine ⟨offset, hoffset.lt_day hhour, ?_⟩
          rw [hoffset.write, hhh.unique (htwo (hday hhour)), hmm.unique (htwo hminute),
            hss.unique (htwo hsecond)]
          simp [pos.ne']
      | @fraction isWest _ _ _ _ _ _ isTime isFraction pos =>
          obtain ⟨hhour, hminute, hsecond, hh, mm, ss, hhh, hmm, hss, rfl⟩ := isTime
          have hmicro : _ < Instant.oneSecond := isFraction.lt
          obtain ⟨offset, hoffset⟩ := exists_offset hminute hsecond hmicro
            fun _ : isWest = true => Nat.lt_of_lt_of_le pos (Nat.le_add_left _ _)
          refine ⟨offset, hoffset.lt_day hhour, ?_⟩
          rw [hoffset.write, hhh.unique (htwo (hday hhour)), hmm.unique (htwo hminute),
            hss.unique (htwo hsecond),
            isFraction.unique (isNumeral_padded (by decide) hmicro)]
          simp [pos.ne']
  · -- how many parts are written depends on the smallest one that is not zero
    rintro ⟨offset, hlt, rfl⟩
    obtain ⟨isWest, hour, minute, second, micro, h⟩ := exists_isOffsetOf offset
    have hhour := h.hour_lt hlt
    have hpos := h.pos
    have htime : IsTimeText hour minute second _ :=
      ⟨hhour, h.minute, h.second, _, _, _, htwo (hday hhour), htwo h.minute, htwo h.second, rfl⟩
    rw [h.write]
    by_cases hmicro : micro = 0
    · by_cases hsecond : second = 0
      · rw [hsecond, hmicro] at hpos
        refine .inl ⟨isWest, hour, minute, hpos, hhour, h.minute, _, _, htwo (hday hhour),
          htwo h.minute, ?_⟩
        simp [hsecond, hmicro]
      · have hfiner : IsFinerOffset (offsetSign isWest :: _) :=
          .seconds htime (Nat.pos_of_ne_zero hsecond)
        refine .inr ?_
        simpa [hsecond, hmicro] using hfiner
    · have hfiner : IsFinerOffset (offsetSign isWest :: _) :=
        .fraction htime (isNumeral_padded (by decide) h.micro) (Nat.pos_of_ne_zero hmicro)
      refine .inr ?_
      simpa [hmicro] using hfiner

/-! ## Timestamps that conform -/

/-- A text conforms to a layout that ends in an offset exactly if a valid date-time with that offset
is written so. -/
theorem conforms_offset_iff {layout : Layout} (h : IsSeparated layout)
    (hyear : .year false ∉ layout) (hlast : layout.getLast? ≠ some .blank) (cs : List Char) :
    conforms (layout ++ [.offset]) cs = true ↔ ∃ (t : Instant) (offset : Int), t.IsValid ∧
      t.offset = some offset ∧ withParts t origin (layout ++ [.offset]) = t ∧
      write layout t ++ writeOffset offset = cs := by
  have hwrite : ∀ t : Instant, write (layout ++ [.offset]) t =
      write layout t ++ t.offset.elim [] writeOffset := fun t => by simp [write, writePart]
  have hread : ∀ t : Instant, t.IsValid → readParts (layout ++ [.offset]) origin
      (write (layout ++ [.offset]) t) =
        readParts [.offset] (withParts t origin layout) (t.offset.elim [] writeOffset) :=
    fun t ht => by
      rw [hwrite]
      exact readParts_append ht h (absurd · hyear) [.offset] origin (absurd · hlast)
  have hback : ∀ (t : Instant) (offset : Int), t.IsValid → t.offset = some offset →
      readParts (layout ++ [.offset]) origin (write (layout ++ [.offset]) t) =
        some (withParts t origin (layout ++ [.offset])) := by
    intro t offset ht hoffset
    obtain ⟨isWest, hour, minute, second, micro, hparts⟩ := exists_isOffsetOf offset
    have hday := ht.2.2.2.2.2
    rw [hoffset, Option.getD_some] at hday
    rw [hread t ht, hoffset, Option.elim_some]
    simp only [readParts, readPart, hparts.read (hparts.hour_lt hday), Option.map_some, withParts,
      List.foldl_append, List.foldl_cons, List.foldl_nil, withPart, hoffset]
  constructor
  · intro hconforms
    cases hparts : readParts (layout ++ [.offset]) origin cs with
    | none => simp only [conforms, Calendar.read, hparts, Bool.false_eq_true] at hconforms
    | some t =>
        by_cases ht : t.IsValid
        · simp only [conforms, Calendar.read, hparts, if_pos ht, beq_iff_eq] at hconforms
          rw [← hconforms] at hparts
          cases hoffset : t.offset with
          | none =>
              rw [hread t ht, hoffset] at hparts
              cases hparts
          | some offset =>
              rw [hback t offset ht hoffset] at hparts
              rw [hwrite, hoffset] at hconforms
              exact ⟨t, offset, ht, hoffset, Option.some.inj hparts, hconforms⟩
        · simp only [conforms, Calendar.read, hparts, if_neg ht, Bool.false_eq_true] at hconforms
  · rintro ⟨t, offset, ht, hoffset, hparts, rfl⟩
    have hwritten : write (layout ++ [.offset]) t = write layout t ++ writeOffset offset := by
      rw [hwrite, hoffset, Option.elim_some]
    rw [← hwritten]
    simp only [conforms, Calendar.read, hback t offset ht hoffset, hparts, if_pos ht,
      beq_self_eq_true]

/-- Whether a text is `YYYY-MM-DDTHH:MM:SS` for a date and a time of day. -/
def IsLocalText (d : Date) (hour minute second : Nat) (cs : List Char) : Prop :=
  ∃ date time, IsDateText d date ∧ IsTimeText hour minute second time ∧ cs = date ++ 'T' :: time

/-- Whether a text is a day of the calendar and a time of that day, with `zone` behind them. -/
def IsTimestamp (zone cs : List Char) : Prop :=
  ∃ (d : Date) (hour minute second : Nat) (stem : List Char), d.IsValid ∧
    IsLocalText d hour minute second stem ∧ cs = stem ++ zone

def timestampLayout : Layout :=
  [.year true, .mark '-', .month, .mark '-', .day, .mark 'T', .hour, .mark ':', .minute, .mark ':',
    .second]

theorem isSeparated_timestamp : IsSeparated timestampLayout := ⟨by decide, by decide⟩

theorem isNumeral_paddedYear {d : Date} (h : d.IsValid) : IsNumeral 4 d.year (padded 4 d.year) := by
  have hle : d.year ≤ 9999 := h.2.1
  exact isNumeral_padded (by decide) (by omega)

theorem isLocalText_iff {t : Instant} (ht : t.IsValid) (cs : List Char) :
    IsLocalText t.date t.hour t.minute t.second cs ↔ cs = write timestampLayout t := by
  have hyear := isNumeral_paddedYear ht.1
  constructor
  · rintro ⟨date, time, ⟨year, month, day, hyyyy, hmm, hdd, rfl⟩,
      ⟨-, -, -, hh, mm, ss, hhh, hmin, hss, rfl⟩, rfl⟩
    rw [hyyyy.unique hyear, hmm.unique (isNumeral_month ht), hdd.unique (isNumeral_day ht),
      hhh.unique (isNumeral_hour ht), hmin.unique (isNumeral_minute ht),
      hss.unique (isNumeral_second ht)]
    simp [write, timestampLayout, writePart]
  · rintro rfl
    refine ⟨_, _, ⟨_, _, _, hyear, isNumeral_month ht, isNumeral_day ht, rfl⟩, ⟨ht.2.1, ht.2.2.1,
      ht.2.2.2.1, _, _, _, isNumeral_hour ht, isNumeral_minute ht, isNumeral_second ht, rfl⟩, ?_⟩
    simp [write, timestampLayout, writePart]

theorem conforms_rfc3339_iff (cs : List Char) :
    conforms TemporalFormat.rfc3339.layout cs = true ↔
      ∃ zone, IsTimestamp zone cs ∧ IsOffsetText zone := by
  have hlayout : TemporalFormat.rfc3339.layout = timestampLayout ++ [.offset] := rfl
  rw [hlayout, conforms_offset_iff isSeparated_timestamp (by decide) (by decide)]
  constructor
  · rintro ⟨t, offset, ht, hoffset, -, rfl⟩
    have hday := ht.2.2.2.2.2
    rw [hoffset, Option.getD_some] at hday
    exact ⟨writeOffset offset, ⟨t.date, t.hour, t.minute, t.second, _, ht.1,
      (isLocalText_iff ht _).2 rfl, rfl⟩, (isOffsetText_iff _).2 ⟨offset, hday, rfl⟩⟩
  · rintro ⟨zone, ⟨d, hour, minute, second, stem, hd, hstem, rfl⟩, hzone⟩
    obtain ⟨offset, hday, rfl⟩ := (isOffsetText_iff _).1 hzone
    have hlocal := hstem
    obtain ⟨-, -, -, ⟨hhour, hminute, hsecond, -⟩, -⟩ := hlocal
    have hone : 0 < Instant.oneSecond := by decide
    have ht : (Instant.mk d hour minute second 0 (some offset)).IsValid :=
      ⟨hd, hhour, hminute, hsecond, hone, hday⟩
    exact ⟨_, offset, ht, rfl, rfl, by rw [← (isLocalText_iff ht stem).1 hstem]⟩

/-! ## Universal time -/

theorem IsTimeText.isDigit_or {hour minute second : Nat} {cs : List Char}
    (h : IsTimeText hour minute second cs) : ∀ c ∈ cs, c.isDigit = true ∨ c = ':' := by
  obtain ⟨-, -, -, hh, mm, ss, hhh, hmm, hss, rfl⟩ := h
  intro c hc
  simp only [List.mem_append, List.mem_cons] at hc
  rcases hc with hc | hc | hc | hc | hc
  · exact .inl (hhh.ascii c hc)
  · exact .inr hc
  · exact .inl (hmm.ascii c hc)
  · exact .inr hc
  · exact .inl (hss.ascii c hc)

theorem IsLocalText.isDigit_or {d : Date} {hour minute second : Nat} {cs : List Char}
    (h : IsLocalText d hour minute second cs) :
    ∀ c ∈ cs, c.isDigit = true ∨ c = '-' ∨ c = 'T' ∨ c = ':' := by
  obtain ⟨date, time, ⟨year, month, day, hyear, hmonth, hday, rfl⟩, htime, rfl⟩ := h
  intro c hc
  simp only [List.mem_append, List.mem_cons] at hc
  rcases hc with (hc | hc | hc | hc | hc) | hc | hc
  · exact .inl (hyear.ascii c hc)
  · exact .inr (.inl hc)
  · exact .inl (hmonth.ascii c hc)
  · exact .inr (.inl hc)
  · exact .inl (hday.ascii c hc)
  · exact .inr (.inr (.inl hc))
  · exact (htime.isDigit_or c hc).imp_right fun h => .inr (.inr h)

theorem IsOffsetText.split {cs : List Char} (h : IsOffsetText cs) :
    ∃ isWest rest, cs = offsetSign isWest :: rest ∧
      ∀ c ∈ rest, c.isDigit = true ∨ c = ':' ∨ c = '.' := by
  rcases h with ⟨isWest, hour, minute, -, -, -, hh, mm, hhh, hmm, rfl⟩ | hfiner
  · refine ⟨isWest, _, rfl, fun c hc => ?_⟩
    simp only [List.mem_append, List.mem_cons] at hc
    rcases hc with hc | hc | hc
    · exact .inl (hhh.ascii c hc)
    · exact .inr (.inl hc)
    · exact .inl (hmm.ascii c hc)
  · cases hfiner with
    | @seconds isWest _ _ _ _ isTime _ =>
        exact ⟨isWest, _, rfl, fun c hc => (isTime.isDigit_or c hc).imp_right .inl⟩
    | @fraction isWest _ _ _ _ _ _ isTime isFraction _ =>
        refine ⟨isWest, _, rfl, fun c hc => ?_⟩
        simp only [List.mem_append, List.mem_cons] at hc
        rcases hc with hc | hc | hc
        · exact (isTime.isDigit_or c hc).imp_right .inl
        · exact .inr (.inr hc)
        · exact .inl (isFraction.ascii c hc)

theorem isNumeral_zero : IsNumeral 2 0 ['0', '0'] :=
  isNumeral_padded (by omega) (by omega)

theorem isOffsetText_zero : IsOffsetText "+00:00".toList :=
  .inl ⟨false, 0, 0, nofun, by decide, by decide, _, _, isNumeral_zero, isNumeral_zero, rfl⟩

theorem isTimestamp_zero_iff (cs : List Char) :
    (∃ zone, IsTimestamp zone (cs ++ "+00:00".toList) ∧ IsOffsetText zone) ↔
      IsTimestamp ['Z'] (cs ++ ['Z']) := by
  constructor
  · rintro ⟨zone, ⟨d, hour, minute, second, stem, hd, hstem, heq⟩, hzone⟩
    obtain ⟨isWest, rest, rfl, hrest⟩ := hzone.split
    have hstem' : '+' ∉ stem := fun hmem => absurd (hstem.isDigit_or _ hmem) (by decide)
    have hrest' : '+' ∉ rest := fun hmem => absurd (hrest _ hmem) (by decide)
    have hcs : stem = cs := ((List.append_cons_inj_of_notMem hstem' hrest').1 heq.symm).1
    exact ⟨d, hour, minute, second, stem, hd, hstem, by rw [hcs]⟩
  · rintro ⟨d, hour, minute, second, stem, hd, hstem, heq⟩
    obtain rfl := List.append_cancel_right heq
    exact ⟨_, ⟨d, hour, minute, second, cs, hd, hstem, rfl⟩, isOffsetText_zero⟩

theorem conforms_expandZulu_iff (cs : List Char) :
    conforms TemporalFormat.rfc3339.layout (TemporalFormat.expandZulu cs) = true ↔
      ∃ zone, IsTimestamp zone cs ∧ (zone = ['Z'] ∨ IsOffsetText zone) := by
  have hlast : ∀ {zone}, IsTimestamp zone cs → IsOffsetText zone → cs.getLast? ≠ some 'Z' := by
    rintro zone ⟨d, hour, minute, second, stem, -, -, rfl⟩ hzone hlast
    obtain ⟨isWest, rest, rfl, hrest⟩ := hzone.split
    rw [List.getLast?_append_of_ne_nil _ (List.cons_ne_nil _ _)] at hlast
    rcases List.mem_cons.1 (List.mem_of_getLast? hlast) with hsign | hmem
    · cases isWest <;> exact absurd hsign (by decide)
    · exact absurd (hrest _ hmem) (by decide)
  rw [conforms_rfc3339_iff, TemporalFormat.expandZulu]
  by_cases hz : cs.getLast? = some 'Z'
  · have hcs : cs.dropLast ++ ['Z'] = cs := List.dropLast_append_getLast? 'Z' hz
    rw [if_pos hz, isTimestamp_zero_iff, hcs]
    constructor
    · exact fun h => ⟨_, h, .inl rfl⟩
    · rintro ⟨zone, h, rfl | hzone⟩
      · exact h
      · exact absurd hz (hlast h hzone)
  · rw [if_neg hz]
    constructor
    · rintro ⟨zone, h, hzone⟩
      exact ⟨zone, h, .inr hzone⟩
    · rintro ⟨zone, h, rfl | hzone⟩
      · obtain ⟨d, hour, minute, second, stem, -, -, rfl⟩ := h
        exact absurd (List.getLast?_concat) hz
      · exact ⟨zone, h, hzone⟩

end Calendar

namespace TemporalFormat

open Calendar

theorem accepts_rfc3339_iff (s : String) : rfc3339.accepts s = true ↔
    ∃ zone, IsTimestamp zone s.toList ∧ (zone = ['Z'] ∨ IsOffsetText zone) :=
  conforms_expandZulu_iff s.toList

/-! ## Distances in hours and minutes -/

/-- Whether a text is `Z` or a sign with hours and minutes. -/
def IsUsualZone (zone : List Char) : Prop :=
  zone = ['Z'] ∨ ∃ isWest hour minute, IsMinuteOffset isWest hour minute zone

/-- Whether a text is a timestamp of the usual form: a day of the calendar, a time of that day, and
`Z` or a sign with hours and minutes. -/
def IsUsualTimestamp (cs : List Char) : Prop :=
  ∃ zone, IsTimestamp zone cs ∧ IsUsualZone zone

/-- Of all distances in hours and minutes, only nothing with a minus sign is never written. -/
theorem isUsualZone_iff (zone : List Char) :
    (zone = ['Z'] ∨ IsOffsetText zone) ↔
      IsUsualZone zone ∧ zone ≠ "-00:00".toList ∨ IsFinerOffset zone := by
  constructor
  · intro h
    rcases h with rfl | ⟨isWest, hour, minute, hzero, hzone⟩ | hfiner
    · exact .inl ⟨.inl rfl, by decide⟩
    · refine .inl ⟨.inr ⟨isWest, hour, minute, hzone⟩, ?_⟩
      rintro rfl
      obtain ⟨-, -, hh, mm, hhh, hmm, heq⟩ := hzone
      have hsign : '-' = offsetSign isWest := (List.cons.inj heq).1
      have hsplit : ['0', '0'] ++ ':' :: ['0', '0'] = hh ++ ':' :: mm := (List.cons.inj heq).2
      obtain ⟨rfl, hrest⟩ := List.append_inj hsplit (isNumeral_zero.length.trans hhh.length.symm)
      obtain rfl := (List.cons.inj hrest).2
      have hwest : isWest = true := by
        cases isWest with
        | false => exact absurd hsign (by decide)
        | true => rfl
      have hpos := hzero hwest
      rw [← hhh.value, ← hmm.value] at hpos
      exact absurd hpos (by decide)
    · exact .inr hfiner
  · intro h
    rcases h with ⟨rfl | ⟨isWest, hour, minute, hzone⟩, hne⟩ | hfiner
    · exact .inl rfl
    · refine .inr (.inl ⟨isWest, hour, minute, fun hwest => ?_, hzone⟩)
      obtain ⟨-, -, hh, mm, hhh, hmm, rfl⟩ := hzone
      by_contra hzero
      obtain rfl : hour = 0 := by omega
      obtain rfl : minute = 0 := by omega
      refine hne ?_
      rw [hhh.unique isNumeral_zero, hmm.unique isNumeral_zero, hwest]
      rfl
    · exact .inr (.inr hfiner)

/-- A timestamp conforms exactly if it is one of the usual form, other than with nothing and a minus
sign for its distance, or one whose distance goes on to seconds other than zero, or to millionths of
a second. -/
theorem accepts_usual_or_finer (s : String) :
    rfc3339.accepts s = true ↔ ∃ zone, IsTimestamp zone s.toList ∧
      (IsUsualZone zone ∧ zone ≠ "-00:00".toList ∨ IsFinerOffset zone) := by
  rw [accepts_rfc3339_iff]
  exact exists_congr fun zone => and_congr_right fun _ => isUsualZone_iff zone

theorem length_of_isUsualTimestamp {cs : List Char} (h : IsUsualTimestamp cs) :
    cs.length = 20 ∨ cs.length = 25 := by
  obtain ⟨zone, ⟨d, hour, minute, second, stem, -, ⟨date, time, ⟨year, month, day, hyear, hmonth,
    hday, rfl⟩, ⟨-, -, -, hh, mm, ss, hhh, hmm, hss, rfl⟩, rfl⟩, rfl⟩, hzone⟩ := h
  have hstem := hyear.length
  have hmonth := hmonth.length
  have hday := hday.length
  have hhh := hhh.length
  have hmm := hmm.length
  have hss := hss.length
  rcases hzone with rfl | ⟨isWest, hour, minute, -, -, oh, om, hoh, hom, rfl⟩
  · refine .inl ?_
    simp only [List.length_append, List.length_cons, List.length_nil]
    omega
  · have hoh := hoh.length
    have hom := hom.length
    refine .inr ?_
    simp only [List.length_append, List.length_cons]
    omega

/-- A distance with seconds conforms. -/
theorem not_every_accepted_usual :
    ¬ ∀ s : String, rfc3339.accepts s = true → IsUsualTimestamp s.toList := by
  intro hclaim
  have husual := hclaim "2020-01-01T00:00:00+05:30:15" (by decide)
  have hlength := length_of_isUsualTimestamp husual
  exact absurd hlength (by decide)

/-- Whether a text is `YYYY-MM-DDTHH:MM:SS` and a sign with `HH:MM`. -/
def IsCanonicalTimestamp (d : Date) (hour minute second : Nat) (isWest : Bool)
    (offsetHour offsetMinute : Nat) (cs : List Char) : Prop :=
  ∃ stem zone, IsLocalText d hour minute second stem ∧
    IsMinuteOffset isWest offsetHour offsetMinute zone ∧ cs = stem ++ zone

/-- Every valid date, time of day and distance of less than a day are written in one canonical way,
which conforms; and `Z` conforms wherever a distance of zero does. -/
theorem accepts_canonical :
    (∀ (d : Date) (hour minute second : Nat) (isWest : Bool) (offsetHour offsetMinute : Nat),
      d.IsValid → hour < 24 → minute < 60 → second < 60 → offsetHour < 24 → offsetMinute < 60 →
        (isWest = true → 0 < offsetHour + offsetMinute) →
          ∃ s : String,
            IsCanonicalTimestamp d hour minute second isWest offsetHour offsetMinute s.toList ∧
              rfc3339.accepts s = true ∧
              ∀ s' : String,
                IsCanonicalTimestamp d hour minute second isWest offsetHour offsetMinute s'.toList →
                  s' = s) ∧
      ∀ t : String, rfc3339.accepts (t ++ "Z") = rfc3339.accepts (t ++ "+00:00") := by
  constructor
  · intro d hour minute second isWest offsetHour offsetMinute hd hhour hminute hsecond hoffsetHour
      hoffsetMinute hzero
    have ht := clock_isValid hd hhour hminute hsecond
    have hstem := (isLocalText_iff ht _).2 rfl
    have hoh : IsNumeral 2 offsetHour (padded 2 offsetHour) :=
      isNumeral_padded (by decide) (by omega)
    have hom : IsNumeral 2 offsetMinute (padded 2 offsetMinute) :=
      isNumeral_padded (by decide) (by omega)
    have hzone : IsMinuteOffset isWest offsetHour offsetMinute _ :=
      ⟨hoffsetHour, hoffsetMinute, _, _, hoh, hom, rfl⟩
    refine ⟨String.ofList (_ ++ _), ⟨_, _, hstem, hzone, String.toList_ofList⟩, ?_, ?_⟩
    · rw [accepts_rfc3339_iff, String.toList_ofList]
      exact ⟨_, ⟨d, hour, minute, second, _, hd, hstem, rfl⟩,
        .inr (.inl ⟨isWest, offsetHour, offsetMinute, hzero, hzone⟩)⟩
    · rintro s' ⟨stem, zone, hstem', ⟨-, -, oh, om, hoh', hom', rfl⟩, hs'⟩
      rw [(isLocalText_iff ht stem).1 hstem', hoh'.unique hoh, hom'.unique hom] at hs'
      rw [← hs', String.ofList_toList]
  · intro t
    have hz : (t ++ "Z").toList = t.toList ++ ['Z'] := String.toList_append
    have hplus : (t ++ "+00:00").toList = t.toList ++ "+00:00".toList := String.toList_append
    have hlast : (t.toList ++ "+00:00".toList).getLast? ≠ some 'Z' := by
      rw [List.getLast?_append_of_ne_nil _ (by decide)]
      decide
    simp only [accepts, hz, hplus, expandZulu, if_neg hlast, List.getLast?_concat, if_true,
      List.dropLast_concat]

/-- The last second of a leap day, half an hour off the full hours in the west. -/
theorem accepts_canonical_leapDay :
    ∃ s : String, IsCanonicalTimestamp ⟨2024, 2, 29⟩ 23 59 59 true 12 30 s.toList ∧
      rfc3339.accepts s = true := by
  obtain ⟨s, hs, haccepts, -⟩ := accepts_canonical.1 ⟨2024, 2, 29⟩ 23 59 59 true 12 30 (by decide)
    (by decide) (by decide) (by decide) (by decide) (by decide) (by decide)
  exact ⟨s, hs, haccepts⟩

end TemporalFormat

end Raml
