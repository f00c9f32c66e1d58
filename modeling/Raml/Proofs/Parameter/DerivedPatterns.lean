import Raml.Proofs.Parameter.Languages

/-! # The texts that derived patterns are meant for

Where a parameter declares no pattern, its pattern is looked for in a text of one
line and found exactly if the text is what the parameter is about: a member of
the enumeration, or else a text of the type, or else a segment of a URI within
the bounds on its length. Types are told by the characters of their texts, not by
how a pattern takes them.
-/

namespace Raml

open Pattern

/-! ## Numbers and truth values as texts -/

namespace Parameter

def IsSign (sign : List Char) : Prop :=
  sign = [] ∨ sign = ['-'] ∨ sign = ['+']

/-- A sign or none, and at least one digit. -/
def IsIntegerText (text : List Char) : Prop :=
  ∃ sign body, text = sign ++ body ∧ IsSign sign ∧ body ≠ [] ∧ ∀ c ∈ body, c.isDigit = true

/-- A sign or none, and digits with at most one point, the last of them a digit. -/
def IsNumberText (text : List Char) : Prop :=
  ∃ sign body, text = sign ++ body ∧ IsSign sign ∧
    (∀ c ∈ body, c.isDigit = true ∨ c = '.') ∧ body.count '.' ≤ 1 ∧
      ∃ d, body.getLast? = some d ∧ d.isDigit = true

/-- At most one character that satisfies a test. -/
theorem mem_optional {test : Char → Bool} {w : List Char} :
    w ∈ exactly test 0 * upTo test (some 1) ↔ w = [] ∨ ∃ c, test c = true ∧ w = [c] := by
  rw [mem_exactly_mul_upTo]
  constructor
  · rintro ⟨-, hlimit, htest⟩
    match w, hlimit 1 rfl with
    | [], _ => exact .inl rfl
    | [c], _ => exact .inr ⟨c, htest c List.mem_cons_self, rfl⟩
  · rintro (rfl | ⟨c, hc, rfl⟩)
    · simp
    · simp [hc]

theorem mem_many {test : Char → Bool} {w : List Char} :
    w ∈ exactly test 0 * upTo test none ↔ ∀ c ∈ w, test c = true := by
  rw [mem_exactly_mul_upTo]
  simp

theorem mem_optionalSign {sign : List Char} : sign ∈ optionalSign ↔ IsSign sign := by
  rw [optionalSign, mem_optional, IsSign]
  simp only [Bool.or_eq_true, beq_iff_eq]
  constructor
  · rintro (rfl | ⟨c, rfl | rfl, rfl⟩)
    · exact .inl rfl
    · exact .inr (.inl rfl)
    · exact .inr (.inr rfl)
  · rintro (rfl | rfl | rfl)
    · exact .inl rfl
    · exact .inr ⟨'-', .inl rfl, rfl⟩
    · exact .inr ⟨'+', .inr rfl, rfl⟩

theorem mem_someDigits {body : List Char} :
    body ∈ someDigits ↔ body ≠ [] ∧ ∀ c ∈ body, c.isDigit = true := by
  rw [someDigits, mem_exactly_mul_upTo, Nat.one_le_iff_ne_zero, ne_eq, List.length_eq_zero_iff]
  simp

theorem count_point_eq_zero {cs : List Char} (h : ∀ c ∈ cs, c.isDigit = true) :
    cs.count '.' = 0 := by
  rw [List.count_eq_zero]
  exact fun hpoint => absurd (h _ hpoint) (by decide)

/-- Digits, at most one point and at least one digit, in this order, are digits and at most one
point that end in a digit. -/
theorem exists_decimals_iff {body : List Char} :
    (∃ whole point part, body = whole ++ (point ++ part) ∧ (∀ c ∈ whole, c.isDigit = true) ∧
      (point = [] ∨ point = ['.']) ∧ part ≠ [] ∧ ∀ c ∈ part, c.isDigit = true) ↔
    (∀ c ∈ body, c.isDigit = true ∨ c = '.') ∧ body.count '.' ≤ 1 ∧
      ∃ d, body.getLast? = some d ∧ d.isDigit = true := by
  constructor
  · rintro ⟨whole, point, part, rfl, hwhole, hpoint, hne, hpart⟩
    refine ⟨?_, ?_, part.getLast hne, ?_, hpart _ (List.getLast_mem hne)⟩
    · rw [List.forall_mem_append, List.forall_mem_append]
      refine ⟨fun c hc => .inl (hwhole c hc), fun c hc => .inr ?_, fun c hc => .inl (hpart c hc)⟩
      rcases hpoint with rfl | rfl
      · cases hc
      · exact List.mem_singleton.1 hc
    · rw [List.count_append, List.count_append, count_point_eq_zero hwhole,
        count_point_eq_zero hpart]
      rcases hpoint with rfl | rfl <;> decide
    · rw [List.getLast?_append, List.getLast?_append, List.getLast?_eq_some_getLast hne]
      rfl
  · rintro ⟨hbody, hone, d, hlast, hd⟩
    have hdigits : ∀ cs : List Char, (∀ c ∈ cs, c ∈ body) → cs.count '.' = 0 →
        ∀ c ∈ cs, c.isDigit = true := by
      intro cs hcs hcount c hc
      refine (hbody c (hcs c hc)).resolve_right ?_
      rintro rfl
      exact List.count_eq_zero.1 hcount hc
    by_cases hpoint : '.' ∈ body
    · obtain ⟨whole, part, rfl⟩ := List.append_of_mem hpoint
      rw [List.count_append, List.count_cons_self] at hone
      have hpart : part ≠ [] := by
        rintro rfl
        rw [List.getLast?_concat] at hlast
        exact absurd (Option.some.inj hlast ▸ hd) (by decide)
      exact ⟨whole, ['.'], part, rfl, hdigits whole (fun c hc => by simp [hc]) (by omega),
        .inr rfl, hpart, hdigits part (fun c hc => by simp [hc]) (by omega)⟩
    · refine ⟨[], [], body, rfl, by simp, .inl rfl, ?_,
        hdigits body (fun _ => id) (List.count_eq_zero.2 hpoint)⟩
      rintro rfl
      cases hlast

theorem mem_integer {text : List Char} : text ∈ optionalSign * someDigits ↔ IsIntegerText text := by
  rw [Language.mem_mul]
  constructor
  · rintro ⟨sign, hsign, body, hbody, rfl⟩
    exact ⟨sign, body, rfl, mem_optionalSign.1 hsign, mem_someDigits.1 hbody⟩
  · rintro ⟨sign, body, rfl, hsign, hbody⟩
    exact ⟨sign, mem_optionalSign.2 hsign, body, mem_someDigits.2 hbody, rfl⟩

theorem mem_number {text : List Char} : text ∈ optionalSign *
    (exactly Char.isDigit 0 * upTo Char.isDigit none *
      (exactly (hasCode '.'.toNat .exact) 0 * upTo (hasCode '.'.toNat .exact) (some 1) *
        someDigits)) ↔ IsNumberText text := by
  have hpoint : ∀ {point : List Char},
      point ∈ exactly (hasCode '.'.toNat .exact) 0 * upTo (hasCode '.'.toNat .exact) (some 1) ↔
        point = [] ∨ point = ['.'] := by
    intro point
    rw [mem_optional]
    simp only [hasCode_exact_iff, exists_eq_left]
  rw [Language.mem_mul]
  constructor
  · rintro ⟨sign, hsign, body, hbody, rfl⟩
    obtain ⟨whole, hwhole, _, ⟨point, hp, part, hpart, rfl⟩, rfl⟩ := hbody
    obtain ⟨hne, hdigits⟩ := mem_someDigits.1 hpart
    exact ⟨sign, _, rfl, mem_optionalSign.1 hsign, exists_decimals_iff.1
      ⟨whole, point, part, rfl, mem_many.1 hwhole, hpoint.1 hp, hne, hdigits⟩⟩
  · rintro ⟨sign, body, rfl, hsign, hbody⟩
    obtain ⟨whole, point, part, rfl, hwhole, hp, hne, hdigits⟩ := exists_decimals_iff.2 hbody
    exact ⟨sign, mem_optionalSign.2 hsign, _, ⟨whole, mem_many.2 hwhole, _, ⟨point, hpoint.2 hp,
      part, mem_someDigits.2 ⟨hne, hdigits⟩, rfl⟩, rfl⟩, rfl⟩

/-! ## Types with patterns -/

/-- The texts that a type with a pattern of its own is about. Dates are left out. -/
def typeTexts? : String → Option (Language Char)
  | "integer" => some {text | IsIntegerText text}
  | "number" => some {text | IsNumberText text}
  | "boolean" => some {text | text = "true".toList ∨ text = "false".toList}
  | "file" => some {_text | True}
  | _ => none

theorem occursIn_typePattern {type pattern : String} (h : typePattern? type = some pattern)
    (hdate : type ≠ "date") {s : String} (hline : '\n' ∉ s.toList) :
    ∃ L, typeTexts? type = some L ∧ (OccursIn pattern s ↔ s.toList ∈ L) := by
  unfold typePattern? at h
  split at h
  · obtain rfl := Option.some.inj h
    exact ⟨_, rfl, (denotes_number.occursIn_line hline).trans mem_number⟩
  · obtain rfl := Option.some.inj h
    exact ⟨_, rfl, (denotes_integer.occursIn_line hline).trans mem_integer⟩
  · obtain rfl := Option.some.inj h
    exact ⟨_, rfl, denotes_boolean.occursIn_line hline⟩
  · exact absurd rfl hdate
  · obtain rfl := Option.some.inj h
    refine ⟨_, rfl, (denotes_file.occursIn_line hline).trans (iff_of_true ?_ trivial)⟩
    rw [mem_many]
    exact fun c hc => by simpa using ne_of_mem_of_not_mem hc hline
  · cases h

theorem typeTexts?_eq_none {type : String} (h : typePattern? type = none) :
    typeTexts? type = none := by
  unfold typeTexts?
  split <;> first | rfl | cases h

/-! ## Parameters -/

/-- The texts that a parameter without a declared pattern is about: those of its members if it
lists any, or else those of its type, or else segments of a URI, within the bounds on the length if
there are any. -/
inductive Takes (p : Parameter) : List Char → Prop
  | member {members : List Value} {m : Value} : p.enum = some members → m ∈ members →
      Takes p m.shown.toList
  | typed {L : Language Char} {text : List Char} : p.ListsNothing → typeTexts? p.type = some L →
      text ∈ L → Takes p text
  | bounded {text : List Char} : p.ListsNothing → typeTexts? p.type = none →
      p.minLength ≠ none ∨ p.maxLength ≠ none → '/' ∉ text →
        WithinBounds p.minLength p.maxLength text.length → Takes p text
  | segment {text : List Char} : p.ListsNothing → typeTexts? p.type = none →
      p.minLength = none → p.maxLength = none → text ≠ [] → '/' ∉ text → Takes p text

section Takes

variable {p : Parameter} {text : List Char}

theorem takes_iff_of_members {members : List Value} (henum : p.enum = some members)
    (hne : members ≠ []) : p.Takes text ↔ ∃ m ∈ members, text = m.shown.toList := by
  have hlists : ¬ p.ListsNothing := fun hnothing => hne (hnothing members henum)
  constructor
  · intro h
    cases h with
    | member henum' hm =>
        rw [henum] at henum'
        obtain rfl := Option.some.inj henum'
        exact ⟨_, hm, rfl⟩
    | typed hnothing => exact absurd hnothing hlists
    | bounded hnothing => exact absurd hnothing hlists
    | segment hnothing => exact absurd hnothing hlists
  · rintro ⟨m, hm, rfl⟩
    exact .member henum hm

variable (hnothing : p.ListsNothing)
include hnothing

theorem takes_iff_of_type {L : Language Char} (htype : typeTexts? p.type = some L) :
    p.Takes text ↔ text ∈ L := by
  have hsome : typeTexts? p.type ≠ none := by simp [htype]
  constructor
  · intro h
    cases h with
    | member henum hm => exact absurd (hnothing _ henum) (List.ne_nil_of_mem hm)
    | typed _ htype' h =>
        rw [htype] at htype'
        exact Option.some.inj htype' ▸ h
    | bounded _ hnone => exact absurd hnone hsome
    | segment _ hnone => exact absurd hnone hsome
  · exact .typed hnothing htype

theorem takes_iff_of_bounds (htype : typeTexts? p.type = none)
    (hbounds : p.minLength ≠ none ∨ p.maxLength ≠ none) :
    p.Takes text ↔ text ∈ slashless p.minLength p.maxLength := by
  constructor
  · intro h
    cases h with
    | member henum hm => exact absurd (hnothing _ henum) (List.ne_nil_of_mem hm)
    | typed _ hsome => rw [htype] at hsome; cases hsome
    | bounded _ _ _ hslash hwithin => exact ⟨hslash, hwithin⟩
    | segment _ _ hleast hmost => exact absurd hbounds (by simp [hleast, hmost])
  · exact fun h => .bounded hnothing htype hbounds h.1 h.2

theorem takes_iff_of_segment (htype : typeTexts? p.type = none) (hleast : p.minLength = none)
    (hmost : p.maxLength = none) : p.Takes text ↔ text ≠ [] ∧ '/' ∉ text := by
  constructor
  · intro h
    cases h with
    | member henum hm => exact absurd (hnothing _ henum) (List.ne_nil_of_mem hm)
    | typed _ hsome => rw [htype] at hsome; cases hsome
    | bounded _ _ hbounds => exact absurd hbounds (by simp [hleast, hmost])
    | segment _ _ _ _ hne hslash => exact ⟨hne, hslash⟩
  · exact fun h => .segment hnothing htype hleast hmost h.1 h.2

end Takes

/-- In a text of one line the pattern of a parameter that declares none, if it is an expression, is
found exactly if the parameter is about the text. Dates are left out, and bounds that the pattern
follows from have to be natural numbers. -/
theorem occursIn_matchPattern_iff_takes {p : Parameter} (hpattern : p.DeclaresNoPattern)
    (hexpression : p.HasExpression) (hdate : p.type ≠ "date")
    (hnatural : p.ListsNothing → typeTexts? p.type = none →
      IsNatural p.minLength ∧ IsNatural p.maxLength)
    {s : String} (hline : '\n' ∉ s.toList) : OccursIn p.matchPattern s ↔ p.Takes s.toList := by
  by_cases hnothing : p.ListsNothing
  · obtain ⟨node, hread⟩ := hexpression
    rw [matchPattern_of_listsNothing hpattern hnothing] at hread ⊢
    cases htype : typePattern? p.type with
    | some pattern =>
        obtain ⟨L, htexts, hfound⟩ := occursIn_typePattern htype hdate hline
        rw [takes_iff_of_type hnothing htexts]
        exact hfound
    | none =>
        have htexts := typeTexts?_eq_none htype
        obtain ⟨hleast, hmost⟩ := hnatural hnothing htexts
        rw [htype, Option.getD_none, segmentPattern] at hread
        rw [Option.getD_none, segmentPattern]
        split at hread
        · next hbounds =>
            have hbody := denotes_lengthPattern hleast hmost hread
            rw [if_pos hbounds, lengthPattern_eq, hbody.occursIn_line hline,
              takes_iff_of_bounds hnothing htexts (by simpa [Option.isSome_iff_ne_none] using hbounds)]
        · next hbounds =>
            have hnone : p.minLength = none ∧ p.maxLength = none := by simpa using hbounds
            rw [if_neg hbounds, occursIn_default,
              takes_iff_of_segment hnothing htexts hnone.1 hnone.2]
            simp
  · obtain ⟨members, henum, hne⟩ : ∃ members, p.enum = some members ∧ members ≠ [] := by
      simpa [ListsNothing] using hnothing
    obtain ⟨body, heq, hbody⟩ := denotes_memberPattern hne
    rw [matchPattern_of_enum hpattern henum hne, heq, hbody.occursIn_line hline,
      takes_iff_of_members henum hne]
    rfl

def countryCode : Parameter :=
  { Api.bareParameter "country" "string" none with minLength := some 2, maxLength := some 3 }

/-- The pattern of the code of a country is found in one of two characters and in no other text. -/
theorem occursIn_matchPattern_iff_takes_countryCode :
    OccursIn countryCode.matchPattern "de" ∧ ¬ OccursIn countryCode.matchPattern "d/e" ∧
      ¬ OccursIn countryCode.matchPattern "d" := by
  have hread : (Pattern.read countryCode.matchPattern).toOption.isSome = true := by decide +kernel
  obtain ⟨node, hnode⟩ := Option.isSome_iff_exists.1 hread
  have hpattern : countryCode.DeclaresNoPattern := fun _ h => by cases h
  have hnothing : countryCode.ListsNothing := .of_none rfl
  have hnatural : IsNatural countryCode.minLength ∧ IsNatural countryCode.maxLength :=
    ⟨fun n h => by cases h; decide, fun n h => by cases h; decide⟩
  have hfound : ∀ {s : String}, '\n' ∉ s.toList → (OccursIn countryCode.matchPattern s ↔
      s.toList ∈ slashless countryCode.minLength countryCode.maxLength) := fun hline =>
    (occursIn_matchPattern_iff_takes hpattern ⟨node, Except.eq_ok_of_toOption hnode⟩ (by decide)
      (fun _ _ => hnatural) hline).trans
        (takes_iff_of_bounds hnothing rfl (.inl (Option.some_ne_none _)))
  refine ⟨(hfound (by decide)).2 ⟨by decide, ?_, ?_⟩, ?_, ?_⟩
  · intro n h
    cases h
    decide
  · intro n h
    cases h
    decide
  · exact fun h => absurd ((hfound (by decide)).1 h).1 (by decide)
  · exact fun h => absurd (((hfound (by decide)).1 h).2.least 2 rfl) (by decide)

end Parameter

end Raml
