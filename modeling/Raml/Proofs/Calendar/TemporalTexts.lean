import Mathlib.Data.List.Chain
import Raml.Calendar.Formats
import Raml.Proofs.Calendar.Weekdays
import Raml.Proofs.Number.Numerals

/-! # Texts that conform to a format

A text conforms to a layout if it is what a valid date-time is written as. Reading is lenient, but
it reads back what was written, so it does not keep out any such text; only a year of less than four
digits is not read. From this follows for each format how exactly a text looks that conforms to it.
-/

namespace Raml

namespace Calendar

/-! ## Reading what was written -/

def withPart (t u : Instant) : LayoutPart → Instant
  | .mark _ | .blank | .weekdayName => u
  | .year _ => { u with date := { u.date with year := t.date.year } }
  | .month | .monthName => { u with date := { u.date with month := t.date.month } }
  | .day => { u with date := { u.date with day := t.date.day } }
  | .hour => { u with hour := t.hour }
  | .minute => { u with minute := t.minute }
  | .second => { u with second := t.second }
  | .offset => { u with offset := t.offset }

/-- Whether a text does not start with a blank. -/
def StartsVisible (cs : List Char) : Prop :=
  ∀ c ∈ cs.head?, Text.isBlank c = false

theorem StartsVisible.append {a : List Char} (h : StartsVisible a) (hne : a ≠ []) (b : List Char) :
    StartsVisible (a ++ b) := by
  cases a with
  | nil => exact absurd rfl hne
  | cons c a => exact h

/-! ### Names -/

/-- Whether names have as many letters and differ in more than their case. -/
structure AreNames (size : Nat) (names : List String) : Prop where
  length : ∀ name ∈ names, name.length = size
  distinct : (names.map fun name => name.toList.map Char.toLower).Nodup

theorem weekdayNames_areNames : AreNames 3 weekdayNames := ⟨by decide, by decide⟩

theorem monthNames_areNames : AreNames 3 monthNames := ⟨by decide, by decide⟩

theorem startsWord_append {name word : String} (h : name.length = word.length) (rest : List Char) :
    startsWord word (name.toList ++ rest) = true ↔
      name.toList.map Char.toLower = word.toList.map Char.toLower := by
  have hlength : name.toList.length = word.length := by rw [String.length_toList, h]
  rw [startsWord, List.take_left' hlength, beq_iff_eq]

theorem AreNames.readName {size : Nat} {names : List String} (h : AreNames size names) {i : Nat}
    (hi : i < names.length) (rest : List Char) :
    readName names ((names.getD i "").toList ++ rest) = some (i, rest) := by
  have hget : names.getD i "" = names[i] := by simp [hi]
  have hlength : ∀ j (hj : j < names.length), names[i].length = names[j].length := fun j hj =>
    (h.length _ (List.getElem_mem hi)).trans (h.length _ (List.getElem_mem hj)).symm
  have hfind : names.findIdx? (startsWord · (names[i].toList ++ rest)) = some i := by
    rw [List.findIdx?_eq_some_iff_getElem]
    refine ⟨hi, (startsWord_append rfl rest).2 rfl, fun j hj hstarts => ?_⟩
    have hj' := hj.trans hi
    have hsame := (startsWord_append (hlength j hj') rest).1 hstarts
    have hdistinct := List.pairwise_iff_getElem.1 h.distinct j i (by simpa using hj')
      (by simpa using hi) hj
    exact hdistinct (by simpa using hsame.symm)
  simp only [Calendar.readName, hget, hfind]
  simp [String.length_toList]

/-! ### Parts -/

section Parts

variable {t : Instant} (ht : t.IsValid)
include ht

theorem isNumeral_year (isPadded : Bool) (h : isPadded = false → 1000 ≤ t.date.year) :
    IsNumeral 4 t.date.year (writePart t (.year isPadded)) := by
  have hle : t.date.year ≤ 9999 := ht.1.2.1
  have hpadded : writePart t (.year isPadded) = padded 4 t.date.year := by
    cases isPadded with
    | false => exact padded_of_le (h rfl)
    | true => rfl
  rw [hpadded]
  exact isNumeral_padded (by decide) (by omega)

theorem isNumeral_month : IsNumeral 2 t.date.month (writePart t .month) := by
  have hle : t.date.month ≤ 12 := ht.1.2.2.2.1
  exact isNumeral_padded (by decide) (by omega)

theorem isNumeral_day : IsNumeral 2 t.date.day (writePart t .day) := by
  have hle : t.date.day ≤ 31 := ht.1.2.2.2.2.2.trans (Date.daysInMonth_le _ _)
  exact isNumeral_padded (by decide) (by omega)

theorem isNumeral_hour : IsNumeral 2 t.hour (writePart t .hour) := by
  have hlt : t.hour < 24 := ht.2.1
  exact isNumeral_padded (by decide) (by omega)

theorem isNumeral_minute : IsNumeral 2 t.minute (writePart t .minute) := by
  have hlt : t.minute < 60 := ht.2.2.1
  exact isNumeral_padded (by decide) (by omega)

theorem isNumeral_second : IsNumeral 2 t.second (writePart t .second) := by
  have hlt : t.second < 60 := ht.2.2.2.1
  exact isNumeral_padded (by decide) (by omega)

/-- A part that was written is read back, unless it is a short year or a blank before a blank. -/
theorem readPart_writePart {p : LayoutPart} (hoffset : p ≠ .offset)
    (hyear : p = .year false → 1000 ≤ t.date.year) (u : Instant) {rest : List Char}
    (hblank : p = .blank → StartsVisible rest) :
    readPart u (writePart t p ++ rest) p = some (withPart t u p, rest) := by
  cases p with
  | mark c => simp [readPart, writePart, withPart]
  | blank =>
      have hdrop : rest.dropWhile Text.isBlank = rest := by
        cases rest with
        | nil => rfl
        | cons c rest => rw [List.dropWhile_cons_of_neg (by simp [hblank rfl c rfl])]
      have hspace : Text.isBlank ' ' = true := by decide
      simp [readPart, writePart, withPart, hspace, hdrop]
  | year isPadded =>
      have hnumeral := isNumeral_year ht isPadded fun hfalse => hyear (congrArg LayoutPart.year hfalse)
      simp only [readPart, withPart, readExactly_numeral hnumeral (by decide), Option.map_some]
  | month =>
      simp only [readPart, withPart, readNumber_numeral (isNumeral_month ht) (by decide),
        Option.map_some]
  | day =>
      simp only [readPart, withPart, readNumber_numeral (isNumeral_day ht) (by decide),
        Option.map_some]
  | hour =>
      simp only [readPart, withPart, readNumber_numeral (isNumeral_hour ht) (by decide),
        Option.map_some]
  | minute =>
      simp only [readPart, withPart, readNumber_numeral (isNumeral_minute ht) (by decide),
        Option.map_some]
  | second =>
      simp only [readPart, withPart, readNumber_numeral (isNumeral_second ht) (by decide),
        Option.map_some]
  | weekdayName =>
      have hlt : t.date.weekday < weekdayNames.length := Nat.mod_lt _ (by decide)
      simp only [readPart, writePart, withPart, weekdayNames_areNames.readName hlt, Option.map_some]
  | monthName =>
      have hpos : 1 ≤ t.date.month := ht.1.2.2.1
      have hle : t.date.month ≤ 12 := ht.1.2.2.2.1
      have hlt : t.date.month - 1 < monthNames.length := by
        show t.date.month - 1 < 12
        omega
      simp only [readPart, writePart, withPart, monthNames_areNames.readName hlt, Option.map_some,
        Nat.sub_add_cancel hpos]
  | offset => exact absurd rfl hoffset

end Parts

/-! ### Layouts -/

/-- A date-time with the parts of a layout taken from another. -/
def withParts (t u : Instant) (layout : Layout) : Instant :=
  layout.foldl (withPart t) u

/-- Whether what is written of a part does not start with a blank. -/
def isVisible : LayoutPart → Bool
  | .mark c => !Text.isBlank c
  | .blank | .offset => false
  | _ => true

/-- Whether what is written of a part starts with something that is no digit. -/
def isSign : LayoutPart → Bool
  | .mark c => !Text.isDecimalDigit c
  | .blank => true
  | _ => false

/-- Whether a part can follow another: there is no blank behind a blank and no digit behind a
year. -/
def Separates (p q : LayoutPart) : Prop :=
  (p = .blank → isVisible q = true) ∧ (p = .year false → isSign q = true)

instance (p q : LayoutPart) : Decidable (Separates p q) := by
  unfold Separates
  infer_instance

/-- Whether a layout has its parts set apart and no offset. -/
structure IsSeparated (layout : Layout) : Prop where
  offset : .offset ∉ layout
  chain : layout.IsChain Separates

theorem IsSeparated.tail {p : LayoutPart} {layout : Layout} (h : IsSeparated (p :: layout)) :
    IsSeparated layout where
  offset hmem := h.offset (List.mem_cons_of_mem p hmem)
  chain := h.chain.tail

theorem not_isBlank_of_isDigit {c : Char} (h : c.isDigit = true) : Text.isBlank c = false := by
  rw [Char.isDigit_iff_toNat] at h
  have hlow : 48 ≤ c.toNat := h.1
  have hhigh : c.toNat ≤ 57 := h.2
  simp only [Text.isBlank, Bool.or_eq_false_iff, Bool.and_eq_false_iff, decide_eq_false_iff_not,
    beq_eq_false_iff_ne]
  omega

theorem IsNumeral.startsVisible {width n : Nat} {digits : List Char}
    (h : IsNumeral width n digits) : StartsVisible digits := fun _ hc =>
  not_isBlank_of_isDigit (h.ascii _ (List.mem_of_mem_head? hc))

section Layouts

variable {t : Instant} (ht : t.IsValid)
include ht

theorem startsVisible_writePart {p : LayoutPart} (h : isVisible p = true)
    (hyear : p = .year false → 1000 ≤ t.date.year) :
    writePart t p ≠ [] ∧ StartsVisible (writePart t p) := by
  have hnumeral : ∀ {width n digits}, 0 < width → IsNumeral width n digits →
      digits ≠ [] ∧ StartsVisible digits := fun hwidth hdigits =>
    ⟨List.length_pos_iff.1 (hdigits.length ▸ hwidth), hdigits.startsVisible⟩
  have hname : ∀ names : List String, (∀ name ∈ names, name.toList ≠ [] ∧
      name.toList.head?.all (fun c => !Text.isBlank c) = true) → ∀ i < names.length,
      (names.getD i "").toList ≠ [] ∧ StartsVisible (names.getD i "").toList := by
    intro names hnames i hi
    have hget : names.getD i "" = names[i] := by simp [hi]
    obtain ⟨hne, hall⟩ := hnames _ (List.getElem_mem hi)
    rw [hget]
    exact ⟨hne, fun c hc => by simpa using (Option.all_eq_true _ _).1 hall c hc⟩
  cases p with
  | mark c =>
      refine ⟨List.cons_ne_nil _ _, fun d hd => ?_⟩
      obtain rfl := Option.some.inj hd
      exact (Bool.not_eq_true' _).mp h
  | blank => cases h
  | year isPadded =>
      exact hnumeral (by decide)
        (isNumeral_year ht isPadded fun hfalse => hyear (congrArg LayoutPart.year hfalse))
  | month => exact hnumeral (by decide) (isNumeral_month ht)
  | day => exact hnumeral (by decide) (isNumeral_day ht)
  | hour => exact hnumeral (by decide) (isNumeral_hour ht)
  | minute => exact hnumeral (by decide) (isNumeral_minute ht)
  | second => exact hnumeral (by decide) (isNumeral_second ht)
  | weekdayName => exact hname weekdayNames (by decide) _ (Nat.mod_lt _ (by decide))
  | monthName =>
      have hpos : 1 ≤ t.date.month := ht.1.2.2.1
      have hle : t.date.month ≤ 12 := ht.1.2.2.2.1
      have hlt : t.date.month - 1 < monthNames.length := by
        show t.date.month - 1 < 12
        omega
      exact hname monthNames (by decide) _ hlt
  | offset => cases h

/-- The parts of a layout are read back from what was written of them, before other parts. -/
theorem readParts_append {a : Layout} (ha : IsSeparated a)
    (hyear : .year false ∈ a → 1000 ≤ t.date.year) (b : Layout) (u : Instant)
    {rest : List Char} (hrest : a.getLast? = some .blank → StartsVisible rest) :
    readParts (a ++ b) u (write a t ++ rest) = readParts b (withParts t u a) rest := by
  induction a generalizing u with
  | nil => rfl
  | cons p a ih =>
      have hlater : .year false ∈ a → 1000 ≤ t.date.year := fun hmem =>
        hyear (List.mem_cons_of_mem p hmem)
      -- a blank part skips all blanks that it meets, so none may follow it
      have hnext : p = .blank → StartsVisible (write a t ++ rest) := by
        intro hp
        cases a with
        | nil => exact hrest (by rw [hp]; rfl)
        | cons q a =>
            have hq := (List.isChain_cons_cons.1 ha.chain).1.1 hp
            obtain ⟨hne, hvisible⟩ := startsVisible_writePart ht hq fun heq =>
              hlater (heq ▸ List.mem_cons_self)
            rw [write, List.flatMap_cons, List.append_assoc]
            exact hvisible.append hne _
      have hpart := readPart_writePart ht (fun heq => ha.offset (heq ▸ List.mem_cons_self))
        (fun heq => hyear (heq ▸ List.mem_cons_self)) u hnext
      have hlast : a.getLast? = some .blank → StartsVisible rest := fun heq =>
        hrest (by rw [List.getLast?_cons, heq]; rfl)
      rw [write, List.flatMap_cons, List.append_assoc, List.cons_append, readParts]
      simp only [write] at hpart
      rw [hpart]
      exact ih ha.tail hlater (withPart t u p) hlast

theorem readParts_write {layout : Layout} (h : IsSeparated layout)
    (hyear : .year false ∈ layout → 1000 ≤ t.date.year) (u : Instant) :
    readParts layout u (write layout t) = some (withParts t u layout) := by
  have hnothing : StartsVisible [] := fun c hc => nomatch hc
  have hread := readParts_append ht h hyear [] u fun _ => hnothing
  rw [List.append_nil, List.append_nil] at hread
  exact hread

/-- A year of less than four digits is written, but it is not read. -/
theorem readParts_short_year {layout : Layout} (h : IsSeparated layout)
    (hyear : .year false ∈ layout) (hlt : t.date.year < 1000) (u : Instant) :
    readParts layout u (write layout t) = none := by
  obtain ⟨a, b, hlayout, hfirst⟩ := List.eq_append_cons_of_mem hyear
  have ha : IsSeparated a := by
    refine ⟨fun hmem => h.offset ?_, ?_⟩
    · exact hlayout ▸ List.mem_append_left _ hmem
    · exact (hlayout ▸ h.chain).left_of_append
  have hyear : writePart t (.year false) = Nat.toDigits 10 t.date.year := padded_one _
  have hshort : (writePart t (.year false)).length < 4 := by
    rw [hyear]
    exact Nat.lt_succ_of_le ((Nat.length_toDigits_le_iff (by decide) (by decide)).2 hlt)
  have hvisible : StartsVisible (writePart t (.year false)) := by
    rw [hyear]
    exact fun c hc => not_isBlank_of_isDigit
      (Nat.isDigit_of_mem_toDigits (by decide) (by decide) (List.mem_of_mem_head? hc))
  have hsign : ∀ c ∈ (write b t).head?, Text.isDecimalDigit c = false := by
    cases b with
    | nil => exact fun c hc => nomatch hc
    | cons q b =>
        have hq := (List.isChain_cons_cons.1 (hlayout ▸ h.chain).right_of_append).1.2 rfl
        intro c hc
        cases q with
        | mark d =>
            obtain rfl := Option.some.inj hc
            exact (Bool.not_eq_true' _).mp hq
        | blank =>
            obtain rfl := Option.some.inj hc
            decide
        | _ => cases hq
  -- everything up to the year is read, and then there are too few digits
  have hne : writePart t (.year false) ≠ [] := hyear ▸ Nat.toDigits_ne_nil
  rw [hlayout, write, List.flatMap_append, List.flatMap_cons]
  rw [write] at hsign
  have hread := readParts_append ht ha (absurd · hfirst) (.year false :: b) u fun _ =>
    hvisible.append hne (b.flatMap (writePart t))
  rw [write] at hread
  rw [hread, readParts]
  have hunread : readExactly 4 (writePart t (.year false) ++ b.flatMap (writePart t)) = none :=
    readExactly_short hshort hsign
  simp only [readPart, hunread, Option.map_none]

end Layouts

/-! ## Texts that conform -/

/-- A text conforms to a layout exactly if a valid date-time that has the parts of the layout, and
the usual ones besides, is written so. A year has to have four digits. -/
theorem conforms_iff {layout : Layout} (h : IsSeparated layout) (cs : List Char) :
    conforms layout cs = true ↔ ∃ t : Instant, t.IsValid ∧ withParts t origin layout = t ∧
      (.year false ∈ layout → 1000 ≤ t.date.year) ∧ write layout t = cs := by
  constructor
  · intro hconforms
    cases hread : readParts layout origin cs with
    | none => simp only [conforms, Calendar.read, hread, Bool.false_eq_true] at hconforms
    | some t =>
        by_cases ht : t.IsValid
        · simp only [conforms, Calendar.read, hread, if_pos ht, beq_iff_eq] at hconforms
          have hyear : .year false ∈ layout → 1000 ≤ t.date.year := by
            intro hmem
            by_contra hshort
            rw [← hconforms, readParts_short_year ht h hmem (not_le.1 hshort)] at hread
            cases hread
          rw [← hconforms, readParts_write ht h hyear] at hread
          exact ⟨t, ht, Option.some.inj hread, hyear, hconforms⟩
        · simp only [conforms, Calendar.read, hread, if_neg ht, Bool.false_eq_true] at hconforms
  · intro hwritten
    obtain ⟨t, ht, hparts, hyear, rfl⟩ := hwritten
    simp only [conforms, Calendar.read, readParts_write ht h hyear, hparts, if_pos ht,
      beq_self_eq_true]

/-- Whether a text is `YYYY-MM-DD` for a date. -/
def IsDateText (d : Date) (cs : List Char) : Prop :=
  ∃ year month day, IsNumeral 4 d.year year ∧ IsNumeral 2 d.month month ∧ IsNumeral 2 d.day day ∧
    cs = year ++ '-' :: (month ++ '-' :: day)

/-- Whether a text is `HH:MM:SS` for a time of day. -/
def IsTimeText (hour minute second : Nat) (cs : List Char) : Prop :=
  hour < 24 ∧ minute < 60 ∧ second < 60 ∧
    ∃ hh mm ss, IsNumeral 2 hour hh ∧ IsNumeral 2 minute mm ∧ IsNumeral 2 second ss ∧
      cs = hh ++ ':' :: (mm ++ ':' :: ss)

/-- Whether a text is `Www, DD Mmm YYYY HH:MM:SS GMT` for a date and a time of day, with the day of
the week that the date falls on. -/
def IsHeaderDateText (d : Date) (hour minute second : Nat) (cs : List Char) : Prop :=
  ∃ w weekday day month year time, d.FallsOn w ∧ weekdayNames[w]? = some weekday ∧
    IsNumeral 2 d.day day ∧ monthNames[d.month - 1]? = some month ∧ IsNumeral 4 d.year year ∧
    IsTimeText hour minute second time ∧
    cs = weekday.toList ++ ',' :: ' ' :: (day ++ ' ' :: (month.toList ++ ' ' :: (year ++
      ' ' :: (time ++ " GMT".toList))))

theorem isSeparated_date : IsSeparated TemporalFormat.date.layout :=
  ⟨by decide, by decide⟩

theorem isSeparated_time : IsSeparated TemporalFormat.time.layout :=
  ⟨by decide, by decide⟩

theorem isSeparated_rfc2616 : IsSeparated TemporalFormat.rfc2616.layout :=
  ⟨by decide, by decide⟩

/-- A date-time to the second on a clock of no known offset. -/
def clock (d : Date) (hour minute second : Nat) : Instant := ⟨d, hour, minute, second, 0, none⟩

theorem clock_isValid {d : Date} {hour minute second : Nat} (hd : d.IsValid) (hhour : hour < 24)
    (hminute : minute < 60) (hsecond : second < 60) : (clock d hour minute second).IsValid := by
  have hmicro : 0 < Instant.oneSecond := by decide
  have hoffset : (0 : Int).natAbs < 24 * 60 * 60 * Instant.oneSecond := by decide
  exact ⟨hd, hhour, hminute, hsecond, hmicro, hoffset⟩

theorem conforms_date_iff (cs : List Char) : conforms TemporalFormat.date.layout cs = true ↔
    ∃ d : Date, d.IsValid ∧ 1000 ≤ d.year ∧ IsDateText d cs := by
  rw [conforms_iff isSeparated_date]
  constructor
  · intro hwritten
    obtain ⟨t, ht, -, hyear, hcs⟩ := hwritten
    have hyear := hyear (by decide)
    refine ⟨t.date, ht.1, hyear, writePart t (.year false), writePart t .month, writePart t .day,
      isNumeral_year ht false fun _ => hyear, isNumeral_month ht, isNumeral_day ht, ?_⟩
    rw [← hcs]
    simp [write, TemporalFormat.layout, writePart]
  · intro htext
    obtain ⟨d, hd, hyear, year, month, day, hyyyy, hmm, hdd, rfl⟩ := htext
    have ht : (clock d 0 0 0).IsValid := clock_isValid hd (by decide) (by decide) (by decide)
    refine ⟨clock d 0 0 0, ht, rfl, fun _ => hyear, ?_⟩
    rw [hyyyy.unique (isNumeral_year ht false fun _ => hyear), hmm.unique (isNumeral_month ht),
      hdd.unique (isNumeral_day ht)]
    simp [write, TemporalFormat.layout, writePart]

theorem conforms_time_iff (cs : List Char) : conforms TemporalFormat.time.layout cs = true ↔
    ∃ hour minute second, IsTimeText hour minute second cs := by
  rw [conforms_iff isSeparated_time]
  constructor
  · intro hwritten
    obtain ⟨t, ht, -, -, hcs⟩ := hwritten
    refine ⟨t.hour, t.minute, t.second, ht.2.1, ht.2.2.1, ht.2.2.2.1, writePart t .hour,
      writePart t .minute, writePart t .second, isNumeral_hour ht, isNumeral_minute ht,
      isNumeral_second ht, ?_⟩
    rw [← hcs]
    simp [write, TemporalFormat.layout, writePart]
  · intro htext
    obtain ⟨hour, minute, second, hhour, hminute, hsecond, hh, mm, ss, hhh, hmm, hss, rfl⟩ := htext
    have ht := clock_isValid (by decide : origin.date.IsValid) hhour hminute hsecond
    refine ⟨clock origin.date hour minute second, ht, rfl, fun hmem => ?_, ?_⟩
    · exact absurd hmem (by decide)
    · rw [hhh.unique (isNumeral_hour ht), hmm.unique (isNumeral_minute ht),
        hss.unique (isNumeral_second ht)]
      simp [write, TemporalFormat.layout, writePart]

theorem conforms_rfc2616_iff (cs : List Char) :
    conforms TemporalFormat.rfc2616.layout cs = true ↔ ∃ (d : Date) (hour minute second : Nat),
      d.IsValid ∧ 1000 ≤ d.year ∧ IsHeaderDateText d hour minute second cs := by
  rw [conforms_iff isSeparated_rfc2616]
  constructor
  · intro hwritten
    obtain ⟨t, ht, -, hyear, hcs⟩ := hwritten
    have hyear := hyear (by decide)
    have hmonth : t.date.month - 1 < monthNames.length := by
      have hle : t.date.month ≤ 12 := ht.1.2.2.2.1
      have hpos : 1 ≤ t.date.month := ht.1.2.2.1
      show t.date.month - 1 < 12
      omega
    have hweekday : t.date.weekday < weekdayNames.length := Nat.mod_lt _ (by decide)
    refine ⟨t.date, t.hour, t.minute, t.second, ht.1, hyear, t.date.weekday,
      weekdayNames[t.date.weekday], writePart t .day, monthNames[t.date.month - 1],
      writePart t (.year false), _, ht.1.isDay.fallsOn_weekday, List.getElem?_eq_getElem hweekday,
      isNumeral_day ht, List.getElem?_eq_getElem hmonth, isNumeral_year ht false fun _ => hyear,
      ⟨ht.2.1, ht.2.2.1, ht.2.2.2.1, writePart t .hour, writePart t .minute, writePart t .second,
        isNumeral_hour ht, isNumeral_minute ht, isNumeral_second ht, rfl⟩, ?_⟩
    rw [← hcs]
    simp [write, TemporalFormat.layout, writePart, hmonth, hweekday]
  · intro htext
    obtain ⟨d, hour, minute, second, hd, hyear, w, weekday, day, month, year, time, hfalls,
      hweekday, hdd, hmonth, hyyyy, ⟨hhour, hminute, hsecond, hh, mm, ss, hhh, hmm, hss, rfl⟩,
      rfl⟩ := htext
    have ht := clock_isValid hd hhour hminute hsecond
    refine ⟨clock d hour minute second, ht, rfl, fun _ => hyear, ?_⟩
    rw [hyyyy.unique (isNumeral_year ht false fun _ => hyear), hdd.unique (isNumeral_day ht),
      hhh.unique (isNumeral_hour ht), hmm.unique (isNumeral_minute ht),
      hss.unique (isNumeral_second ht)]
    have hdate : (clock d hour minute second).date = d := rfl
    rw [hfalls.eq_weekday] at hweekday
    simp [write, TemporalFormat.layout, writePart, hdate, hmonth, hweekday]

end Calendar

/-! ## Formats -/

open Calendar

/-- Dates, times and the dates of headers conform exactly if they are written to the letter: in
ASCII digits as many as the format has, for a day of the calendar from the year 1000 on and a time
of day, and under the name of the weekday that the date has. -/
theorem TemporalFormat.accepts_exactly (s : String) :
    (TemporalFormat.date.accepts s = true ↔
      ∃ d : Date, d.IsValid ∧ 1000 ≤ d.year ∧ IsDateText d s.toList) ∧
    (TemporalFormat.time.accepts s = true ↔
      ∃ hour minute second, IsTimeText hour minute second s.toList) ∧
    (TemporalFormat.rfc2616.accepts s = true ↔ ∃ (d : Date) (hour minute second : Nat),
      d.IsValid ∧ 1000 ≤ d.year ∧ IsHeaderDateText d hour minute second s.toList) :=
  ⟨conforms_date_iff _, conforms_time_iff _, conforms_rfc2616_iff _⟩

/-- The leap day of the year 2000 was a Tuesday. -/
example : TemporalFormat.rfc2616.accepts "Tue, 29 Feb 2000 23:59:59 GMT" = true ∧
    TemporalFormat.rfc2616.accepts "Mon, 29 Feb 2000 23:59:59 GMT" = false := by decide

end Raml
