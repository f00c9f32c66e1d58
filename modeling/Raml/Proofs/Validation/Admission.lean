import Mathlib.Algebra.Group.Int.Defs
import Raml.Proofs.Calendar.Timestamps
import Raml.Proofs.General.Deciding
import Raml.Proofs.Value.Equality
import Raml.Validation.Scalar

/-! # Values of scalar types

What a scalar type admits, said without any order of checks: the value is of the
right kind, bounds on its size are kept, a date or time is written the way that
its format has, and the enumeration holds the value. What regular expressions
and schemas say is up to the engines. A check of a scalar decides this.
-/

namespace Raml

open DataType Calendar

/-! ## Conditions on values -/

structure WithinBounds (least most : Option Int) (size : Nat) : Prop where
  least : ∀ n, least = some n → n ≤ size
  most : ∀ n, most = some n → size ≤ n

def Common.Lists (c : Common) (v : Value) : Prop :=
  ∀ members, c.enum = some members → ∃ m ∈ members, v.Equal m

/-- Whether two numbers are close: in binary64 arithmetic, they differ by no more than a
thousand-millionth, or than that share of the larger one. -/
def Binary64.IsNear (a b : Binary64) : Prop :=
  isClose (.ofDecimal false 1 (-9)) (.ofDecimal false 1 (-9)) a b = true

/-- Whether a number is a multiple of another one: in binary64 arithmetic, the remainder is close
to zero or to the divisor. -/
def Number.IsMultiple (divisor n : Number) : Prop :=
  ∃ x m rest, n.toBinary64? = some x ∧ divisor.toBinary64? = some m ∧ x.remainder? m = some rest ∧
    (rest.IsNear (.finite false 0) ∨ rest.abs.IsNear m.abs)

/-- Whether a number keeps the bounds on its size. What is no number is not beyond any of them, and
a divisor of zero is none. -/
structure NumberFacets.Admits (f : NumberFacets) (n : Number) : Prop where
  minimum : ∀ m, f.minimum = some m → ¬ n.IsBelow m
  maximum : ∀ m, f.maximum = some m → ¬ m.IsBelow n
  multipleOf : ∀ m, f.multipleOf = some m → m.isZero = true ∨ m.IsMultiple n

inductive IsIntegerFormat : String → Nat → Prop
  | int8 : IsIntegerFormat "int8" 8
  | int16 : IsIntegerFormat "int16" 16
  | int32 : IsIntegerFormat "int32" 32
  | int : IsIntegerFormat "int" 32
  | int64 : IsIntegerFormat "int64" 64
  | long : IsIntegerFormat "long" 64

/-- Whether an integer fits its format, if that is a known one: as a number with a sign. -/
def FitsFormat (format : Option String) (n : Int) : Prop :=
  ∀ word width, format = some word → IsIntegerFormat word width →
    -2 ^ (width - 1) ≤ n ∧ n < 2 ^ (width - 1)

/-- The number that a value is; truth values are none. -/
inductive Value.IsNumber : Value → Number → Prop
  | int (n : Int) : IsNumber (.int n) (.int n)
  | float (x : Binary64) : IsNumber (.float x) (.float x)

def AsksForHeaderDate (format : Option String) : Prop :=
  ∃ word, format = some word ∧ word.toList.map Char.toLower = "rfc2616".toList

/-- Whether a text is a timestamp that gives the distance of its clock in the one way in which it
is written, or as `Z`. -/
def IsExactTimestamp (cs : List Char) : Prop :=
  ∃ zone, IsTimestamp zone cs ∧ (zone = ['Z'] ∨ IsOffsetText zone)

inductive TemporalKind.IsText : TemporalKind → Option String → List Char → Prop
  | date {format : Option String} {cs : List Char} {d : Date} (valid : d.IsValid)
      (year : 1000 ≤ d.year) (text : IsDateText d cs) : IsText .dateOnly format cs
  | time {format : Option String} {cs : List Char} {hour minute second : Nat}
      (text : IsTimeText hour minute second cs) : IsText .timeOnly format cs
  | localTime {format : Option String} {cs : List Char} (text : IsExactTimestamp cs) :
      IsText .dateTimeOnly format cs
  | header {format : Option String} {cs : List Char} {d : Date} {hour minute second : Nat}
      (asks : AsksForHeaderDate format) (valid : d.IsValid) (year : 1000 ≤ d.year)
      (text : IsHeaderDateText d hour minute second cs) : IsText .dateTime format cs
  | timestamp {format : Option String} {cs : List Char} (asks : ¬ AsksForHeaderDate format)
      (text : IsExactTimestamp cs) : IsText .dateTime format cs

/-! ## Engines -/

/-- Whether a regular expression can be read and occurs in a text. -/
def OccursIn (source s : String) : Prop :=
  ∃ node, Json.Assertion.patternOf source = .ok node ∧ node.search s = true

section Engines

variable [Validation.Engines]

/-- Whether the engine finds a regular expression in a text. -/
def Finds (source s : String) : Prop := Validation.Engines.occurs source s = .ok true

inductive Value.IsDocument : Value → Validation.Engines.Document → Prop
  | written {s : String} {document : Validation.Engines.Document}
      (decodes : Validation.Engines.decode s = .ok document) : IsDocument (.text s) document
  | decoded {v : Value} (noText : ∀ s, v ≠ .text s) : IsDocument v (Validation.Engines.ofValue v)

inductive Scalar.Admits (c : Common) : Scalar → Value → Prop
  | any {v : Value} (enum : c.Lists v) : Admits c .any v
  | string {f : TextFacets} {s : String} (length : WithinBounds f.minLength f.maxLength s.length)
      (pattern : ∀ source, f.pattern = some source → Finds source s)
      (enum : c.Lists (.text s)) : Admits c (.string f) (.text s)
  | number {f : NumberFacets} {v : Value} {n : Number} (isNumber : v.IsNumber n)
      (size : f.Admits n) (enum : c.Lists v) : Admits c (.number f) v
  | integer {f : NumberFacets} {n : Int} (format : FitsFormat f.format n)
      (size : f.Admits (.int n)) (enum : c.Lists (.int n)) : Admits c (.integer f) (.int n)
  | boolean {b : Bool} (enum : c.Lists (.bool b)) : Admits c .boolean (.bool b)
  | nil : Admits c .nil .null
  | file {f : FileFacets} {content : List UInt8}
      (size : WithinBounds f.minLength f.maxLength content.length) :
      Admits c (.file f) (.bytes content)
  | json {schema : Mapping} {v : Value} {document : Validation.Engines.Document}
      (isDocument : v.IsDocument document)
      (satisfies : Validation.Engines.verdict schema document = .satisfied) :
      Admits c (.json schema) v
  | xml {schema s : String} (wellFormed : Validation.Engines.isXml s = .ok true) :
      Admits c (.xml schema) (.text s)
  | temporal {kind : TemporalKind} {format : Option String} {s : String}
      (text : kind.IsText format s.toList) (enum : c.Lists (.text s)) :
      Admits c (.temporal kind format) (.text s)

end Engines

theorem finds_iff_occursIn (source s : String) : Finds source s ↔ OccursIn source s := by
  show (Json.Assertion.patternOf source).map (fun node => node.search s) = .ok true ↔ _
  unfold OccursIn
  cases Json.Assertion.patternOf source <;> simp [Except.map]

namespace Validation

/-! ## Requirements -/

section Requirements

variable {P : Prop} {y : Except Fault Unit}

theorem Decides.requireMember (c : Common) (v : Value) :
    Decides (Validation.requireMember c v) (c.Lists v) :=
  (Decides.requireBound _ _ _ _).congr
    (by simp [Common.Lists, List.any_eq_true, Value.same_iff])

theorem Decides.within (subject : String) (least most : Option Int) (size : Nat)
    (c c' : Int → Constraint) (hy : Decides y P) :
    Decides
      (Validation.requireBound subject least (fun n => n ≤ size) c >>= fun _ =>
        Validation.requireBound subject most (fun n => size ≤ n) c' >>= fun _ => y)
      (WithinBounds least most size ∧ P) := by
  have hleast := Decides.requireBound subject least (fun n => decide (n ≤ (size : Int))) c
  have hmost := Decides.requireBound subject most (fun n => decide ((size : Int) ≤ n)) c'
  refine (hleast.and (hmost.and hy)).congr ?_
  simp only [decide_eq_true_eq]
  constructor
  · rintro ⟨hl, hm, hp⟩
    exact ⟨⟨hl, hm⟩, hp⟩
  · rintro ⟨hw, hp⟩
    exact ⟨hw.least, hw.most, hp⟩

end Requirements

/-! ## Numbers -/

theorem isMultiple_iff (divisor n : Number) :
    divisor.IsMultiple n ↔ ∃ b, divides divisor n = .ok b ∧ b = true := by
  unfold divides Number.IsMultiple Binary64.IsNear
  constructor
  · rintro ⟨x, m, rest, hx, hm, hrest, hclose⟩
    refine ⟨true, ?_, rfl⟩
    simp only [hx, hm, hrest]
    rw [← Bool.or_eq_true] at hclose
    exact congrArg Except.ok hclose
  · rintro ⟨b, hb, rfl⟩
    split at hb
    · next x m hx hm =>
        split at hb
        · next rest hrest =>
            have hclose := Except.ok.inj hb
            rw [Bool.or_eq_true] at hclose
            exact ⟨x, m, rest, hx, hm, hrest, hclose⟩
        · cases hb
    · cases hb

theorem not_less_iff (m n : Number) : (!m.less n) = true ↔ ¬ m.IsBelow n := by
  rw [← Number.less_iff, Bool.not_eq_true', Bool.not_eq_true]

theorem formatWidth?_eq_some_iff {word : String} {width : Nat} :
    formatWidth? word = some width ↔ IsIntegerFormat word width := by
  constructor
  · intro h
    unfold formatWidth? at h
    split at h <;> cases h <;> constructor
  · intro h
    cases h <;> rfl

theorem fits_iff (width : Nat) (n : Int) :
    fits width n = true ↔ -2 ^ (width - 1) ≤ n ∧ n < 2 ^ (width - 1) := by
  have hpower : Int.ofNat (Nat.pow 2 (width - 1)) = 2 ^ (width - 1) := Int.natCast_pow 2 _
  simp only [fits, decide_eq_true_eq, hpower]

theorem decides_requireMultiple (subject : String) (divisor : Option Number) (n : Number) :
    Decides (requireMultiple subject divisor n)
      (∀ m, divisor = some m → m.isZero = true ∨ m.IsMultiple n) := by
  cases divisor with
  | none => exact .ok (by simp)
  | some m =>
      by_cases hzero : m.isZero = true
      · rw [show requireMultiple subject (some m) n = .ok () from if_pos hzero]
        exact .ok (by simp [hzero])
      · have h : Decides (divides m n >>= fun b => require subject b (.multipleOf m))
            (∃ b, divides m n = .ok b ∧ b = true) := .ofRead fun b _ => .require _ _ _
        rw [show requireMultiple subject (some m) n = _ from if_neg hzero]
        exact h.congr (by simp [hzero, isMultiple_iff])

theorem decides_checkBounds (subject : String) (f : NumberFacets) (n : Number) :
    Decides (checkBounds subject f n) (f.Admits n) := by
  have hmin := Decides.requireBound subject f.minimum (fun m => !n.less m) .minimum
  have hmax := Decides.requireBound subject f.maximum (fun m => !m.less n) .maximum
  have hmultiple := decides_requireMultiple subject f.multipleOf n
  refine (hmin.and (hmax.and hmultiple)).congr ?_
  simp only [not_less_iff]
  constructor
  · rintro ⟨hmin, hmax, hmultiple⟩
    exact ⟨hmin, hmax, hmultiple⟩
  · intro h
    exact ⟨h.minimum, h.maximum, h.multipleOf⟩

theorem decides_requireFormat (subject : String) (format : Option String) (n : Int) :
    Decides (requireFormat subject format n) (FitsFormat format n) := by
  cases format with
  | none => exact .ok (by simp [FitsFormat])
  | some word =>
      have h := Decides.requireBound subject (formatWidth? word) (fits · n) fun _ =>
        .integerFormat word
      refine h.congr ?_
      simp only [formatWidth?_eq_some_iff, fits_iff, FitsFormat, Option.some.injEq]
      exact ⟨fun h _ width hword => hword ▸ h width, fun h width => h word width rfl⟩

theorem number?_eq_some_iff {v : Value} {n : Number} : Json.number? v = some n ↔ v.IsNumber n := by
  constructor
  · intro h
    cases v <;> cases h <;> constructor
  · intro h
    cases h <;> rfl

/-! ## Dates and times -/

theorem formatOf_dateTime_of_asks {format : Option String} (h : AsksForHeaderDate format) :
    formatOf .dateTime format = .rfc2616 := by
  obtain ⟨word, rfl, hword⟩ := h
  exact if_pos hword

theorem formatOf_dateTime_of_not_asks {format : Option String} (h : ¬ AsksForHeaderDate format) :
    formatOf .dateTime format = .rfc3339 := by
  refine if_neg fun hword => h ?_
  cases format with
  | none => cases hword
  | some word => exact ⟨word, rfl, hword⟩

theorem formatOf_accepts_iff (kind : TemporalKind) (format : Option String) (s : String) :
    (formatOf kind format).accepts s = true ↔ kind.IsText format s.toList := by
  cases kind with
  | dateOnly =>
      refine (conforms_date_iff _).trans ⟨?_, ?_⟩
      · rintro ⟨d, hvalid, hyear, htext⟩
        exact .date hvalid hyear htext
      · intro h
        cases h with
        | date hvalid hyear htext => exact ⟨_, hvalid, hyear, htext⟩
  | timeOnly =>
      refine (conforms_time_iff _).trans ⟨?_, ?_⟩
      · rintro ⟨hour, minute, second, htext⟩
        exact .time htext
      · intro h
        cases h with
        | time htext => exact ⟨_, _, _, htext⟩
  | dateTimeOnly =>
      refine (TemporalFormat.accepts_rfc3339_iff s).trans ⟨.localTime, fun h => ?_⟩
      cases h with
      | localTime htext => exact htext
  | dateTime =>
      by_cases hasks : AsksForHeaderDate format
      · rw [formatOf_dateTime_of_asks hasks]
        refine (conforms_rfc2616_iff _).trans ⟨?_, ?_⟩
        · rintro ⟨d, hour, minute, second, hvalid, hyear, htext⟩
          exact .header hasks hvalid hyear htext
        · intro h
          cases h with
          | header _ hvalid hyear htext => exact ⟨_, _, _, _, hvalid, hyear, htext⟩
          | timestamp hnot => exact absurd hasks hnot
      · rw [formatOf_dateTime_of_not_asks hasks]
        refine (TemporalFormat.accepts_rfc3339_iff s).trans ⟨.timestamp hasks, fun h => ?_⟩
        cases h with
        | header hasks' => exact absurd hasks' hasks
        | timestamp _ htext => exact htext

/-! ## Scalars -/

variable [Engines]

theorem decides_requirePattern (subject : String) (pattern : Option String) (s : String) :
    Decides (requirePattern subject pattern s)
      (∀ source, pattern = some source → Finds source s) := by
  cases pattern with
  | none => exact .ok (by simp)
  | some source =>
      have h : Decides (requirePattern subject (some source) s)
          (∃ found, Engines.occurs source s = .ok found ∧ found = true) :=
        .ofRead fun found _ => .require _ _ _
      exact h.congr (by simp [Finds])

theorem isDocument_text_iff {s : String} {document : Engines.Document} :
    Value.IsDocument (.text s) document ↔ Engines.decode s = .ok document := by
  constructor
  · intro h
    cases h with
    | written hdecodes => exact hdecodes
    | decoded hnoText => exact absurd rfl (hnoText s)
  · exact .written

theorem isDocument_iff_of_noText {v : Value} (h : ∀ s, v ≠ .text s)
    {document : Engines.Document} : v.IsDocument document ↔ document = Engines.ofValue v := by
  constructor
  · intro hdocument
    cases hdocument with
    | written => exact absurd rfl (h _)
    | decoded => rfl
  · rintro rfl
    exact .decoded h

theorem decides_decodeJson (subject : String) (v : Value)
    {k : Engines.Document → Except Fault Unit} {R : Engines.Document → Prop}
    (hk : ∀ document, Decides (k document) (R document)) :
    Decides (decodeJson subject v >>= k) (∃ document, v.IsDocument document ∧ R document) := by
  cases v with
  | text s =>
      simp only [isDocument_text_iff, decodeJson]
      cases Engines.decode s with
      | ok document => exact (hk document).congr (by simp)
      | error e => cases e <;> exact .refused _ (by simp)
  | _ => exact (hk _).congr (by simp [isDocument_iff_of_noText])

theorem decides_checkJson (c : Common) (schema : Mapping) (v : Value) :
    Decides (checkJson c schema v) ((Scalar.json schema).Admits c v) := by
  have h : Decides (checkJson c schema v)
      (∃ document, v.IsDocument document ∧ Engines.verdict schema document = .satisfied) := by
    refine decides_decodeJson c.name v fun document => ?_
    cases Engines.verdict schema document with
    | satisfied => exact .ok rfl
    | _ => exact .refused _ (by simp)
  refine h.congr ⟨?_, fun h => ?_⟩
  · rintro ⟨document, hdocument, hsatisfies⟩
    exact .json hdocument hsatisfies
  · cases h with
    | json hdocument hsatisfies => exact ⟨_, hdocument, hsatisfies⟩

theorem decides_checkText (c : Common) (f : TextFacets) (v : Value) :
    Decides (checkText c f v) ((Scalar.string f).Admits c v) := by
  cases v with
  | text s =>
      have hcheck := (decides_requirePattern c.name f.pattern s).and (.requireMember c (.text s))
      have hwithin := hcheck.within c.name f.minLength f.maxLength s.length .minLength .maxLength
      refine hwithin.congr ⟨?_, fun h => ?_⟩
      · rintro ⟨hlength, hpattern, henum⟩
        exact .string hlength hpattern henum
      · cases h with
        | string hlength hpattern henum => exact ⟨hlength, hpattern, henum⟩
  | _ => exact .refused _ fun h => by cases h

theorem decides_checkNumber (c : Common) (f : NumberFacets) (v : Value) :
    Decides (checkNumber c f v) ((Scalar.number f).Admits c v) := by
  unfold checkNumber
  cases hn : Json.number? v with
  | some n =>
      refine ((decides_checkBounds c.name f n).and (.requireMember c v)).congr ⟨?_, fun h => ?_⟩
      · rintro ⟨hsize, henum⟩
        exact .number (number?_eq_some_iff.1 hn) hsize henum
      · cases h with
        | number hn' hsize henum =>
            have hsame := number?_eq_some_iff.2 hn'
            rw [hn] at hsame
            obtain rfl := Option.some.inj hsame
            exact ⟨hsize, henum⟩
  | none =>
      refine .refused _ fun h => ?_
      cases h with
      | number hn' =>
          rw [number?_eq_some_iff.2 hn'] at hn
          cases hn

theorem decides_checkInteger (c : Common) (f : NumberFacets) (v : Value) :
    Decides (checkInteger c f v) ((Scalar.integer f).Admits c v) := by
  cases v with
  | int n =>
      have hbounds := decides_checkBounds c.name f (.int n)
      have hmember := hbounds.and (.requireMember c (.int n))
      refine ((decides_requireFormat c.name f.format n).and hmember).congr ⟨?_, fun h => ?_⟩
      · rintro ⟨hformat, hsize, henum⟩
        exact .integer hformat hsize henum
      · cases h with
        | integer hformat hsize henum => exact ⟨hformat, hsize, henum⟩
  | _ => exact .refused _ fun h => by cases h

theorem decides_checkFile (c : Common) (f : FileFacets) (v : Value) :
    Decides (checkFile c f v) ((Scalar.file f).Admits c v) := by
  cases v with
  | bytes content =>
      have hleast := Decides.requireBound c.name f.minLength
        (fun n => decide (n ≤ (content.length : Int))) .minSize
      have hmost := Decides.requireBound c.name f.maxLength
        (fun n => decide ((content.length : Int) ≤ n)) .maxSize
      refine (hleast.and hmost).congr ?_
      simp only [decide_eq_true_eq]
      constructor
      · rintro ⟨hleast, hmost⟩
        exact .file ⟨hleast, hmost⟩
      · intro h
        cases h with
        | file hsize => exact ⟨hsize.least, hsize.most⟩
  | _ => exact .refused _ fun h => by cases h

theorem decides_checkTemporal (c : Common) (kind : TemporalKind) (format : Option String)
    (v : Value) :
    Decides (checkTemporal c kind format v) ((Scalar.temporal kind format).Admits c v) := by
  have hcheck := fun accepted => (Decides.require c.name accepted
    (.temporalFormat (formatOf kind format).label)).and (.requireMember c v)
  cases v with
  | text s =>
      refine (hcheck ((formatOf kind format).accepts s)).congr ?_
      rw [formatOf_accepts_iff]
      constructor
      · rintro ⟨htext, henum⟩
        exact .temporal htext henum
      · intro h
        cases h with
        | temporal htext henum => exact ⟨htext, henum⟩
  | _ =>
      refine (hcheck false).congr ⟨?_, fun h => by cases h⟩
      rintro ⟨hfalse, -⟩
      cases hfalse

theorem decides_checkScalar (c : Common) (s : Scalar) (v : Value) :
    Decides (checkScalar c s v) (s.Admits c v) := by
  cases s with
  | any =>
      refine (Decides.requireMember c v).congr ⟨.any, fun h => ?_⟩
      cases h with
      | any henum => exact henum
  | string f => exact decides_checkText c f v
  | number f => exact decides_checkNumber c f v
  | integer f => exact decides_checkInteger c f v
  | boolean =>
      cases v with
      | bool b =>
          refine (Decides.requireMember c (.bool b)).congr ⟨.boolean, fun h => ?_⟩
          cases h with
          | boolean henum => exact henum
      | _ => exact .refused _ fun h => by cases h
  | nil =>
      refine (Decides.require c.name v.isNull .isNull).congr ⟨fun h => ?_, fun h => ?_⟩
      · cases v with
        | null => exact .nil
        | _ => cases h
      · cases h
        rfl
  | file f => exact decides_checkFile c f v
  | json schema => exact decides_checkJson c schema v
  | xml schema =>
      cases v with
      | text s =>
          have h : Decides (checkXml c (.text s))
              (∃ well, Engines.isXml s = .ok well ∧ well = true) :=
            .ofRead fun well _ => .require _ _ _
          refine h.congr ⟨?_, fun h => ?_⟩
          · rintro ⟨well, hwell, rfl⟩
            exact .xml hwell
          · cases h with
            | xml hwell => exact ⟨_, hwell, rfl⟩
      | _ => exact .refused _ fun h => by cases h
  | temporal kind format => exact decides_checkTemporal c kind format v

end Validation

end Raml
