import Raml.Parameter.Validation
import Raml.Proofs.Resource.Templates
import Raml.Proofs.Validation.Conformance

/-! # The languages of parameters

The texts that the pattern of a parameter matches in full, where the pattern is
not declared: those of the members of the enumeration, or those without slashes
within the bounds. A parameter looks for its pattern in a text, and finds it
exactly if the text, but for a line feed at its end, is one of them.
-/

namespace Raml

open Pattern

/-! ## Occurrences -/

theorem patternOf_eq_ok_iff {source : String} {node : Node} :
    Json.Assertion.patternOf source = .ok node ↔ Pattern.read source = .ok node := by
  unfold Json.Assertion.patternOf
  split <;> simp_all

theorem Pattern.Denotes.occursIn {body : String} {L : Language Char} (h : Denotes body L)
    (s : String) : OccursIn ("^" ++ body ++ "$") s ↔
      s.toList ∈ L ∨ ∃ line ∈ L, s.toList = line ++ ['\n'] := by
  obtain ⟨node, hread, hsearch⟩ := h.search
  rw [← hsearch]
  constructor
  · rintro ⟨node', hnode, hfound⟩
    rw [patternOf_eq_ok_iff, hread] at hnode
    exact Except.ok.inj hnode ▸ hfound
  · exact fun hfound => ⟨node, patternOf_eq_ok_iff.2 hread, hfound⟩

/-- In a text of one line an expression in anchors is found exactly if it matches in full. -/
theorem Pattern.Denotes.occursIn_line {body : String} {L : Language Char} (h : Denotes body L)
    {s : String} (hline : '\n' ∉ s.toList) :
    OccursIn ("^" ++ body ++ "$") s ↔ s.toList ∈ L := by
  rw [h.occursIn]
  refine or_iff_left fun hfeed => ?_
  obtain ⟨line, -, htext⟩ := hfeed
  rw [htext] at hline
  simp at hline

/-! ## Enumerations of texts -/

def ListsText (enum : Option (List Value)) (s : String) : Prop :=
  ∀ members, enum = some members → .text s ∈ members

theorem requireMember_text_eq_ok_iff {subject : String} {enum : Option (List Value)} {s : String} :
    Validation.requireBound subject enum (fun members => members.any (Value.same (.text s)))
      .memberOf = .ok () ↔ ListsText enum s := by
  rw [Validation.requireBound_eq_ok_iff]
  refine forall_congr' fun members => imp_congr_right fun _ => ?_
  rw [List.any_eq_true]
  constructor
  · rintro ⟨m, hm, hsame⟩
    exact (Value.text_beq s m).1 hsame ▸ hm
  · exact fun hm => ⟨_, hm, (Value.text_beq s _).2 rfl⟩

/-! ## Numbers in patterns -/

theorem numberOf_digits {digits : List Char} (h : ∀ c ∈ digits, c.isDigit = true) :
    Text.numberOf 10 digits = Nat.ofDigitChars 10 digits 0 := by
  -- the number so far is general, since each digit is added to what was read before it
  have hfold : ∀ n, digits.foldl (fun n c => n * 10 + (Text.hexValue? c).getD 0) n =
      Nat.ofDigitChars 10 digits n := by
    induction digits with
    | nil => exact fun n => rfl
    | cons c rest ih =>
        rw [List.forall_mem_cons] at h
        intro n
        have hc : (Text.hexValue? c).getD 0 = c.toNat - '0'.toNat := by
          rw [Text.hexValue?, if_pos h.1]
          rfl
        rw [List.foldl_cons, ih h.2, Nat.ofDigitChars_cons, hc, Nat.mul_comm]
  exact hfold 0

theorem numberOf_repr (n : Nat) : Text.numberOf 10 n.repr.toList = n := by
  rw [numberOf_digits (Parameter.isDigit_of_mem_repr n), Nat.toList_repr]
  exact Nat.ofDigitChars_toDigits (by decide) (by decide)

namespace Parameter

/-! ## Bounds on the length -/

def IsNatural (bound : Option Int) : Prop :=
  ∀ n, bound = some n → 0 ≤ n

theorem IsNatural.exists_eq {bound : Option Int} (h : IsNatural bound) :
    ∃ n : Option Nat, bound = n.map Int.ofNat := by
  cases bound with
  | none => exact ⟨none, rfl⟩
  | some n => exact ⟨some n.toNat, by simp [Int.toNat_of_nonneg (h n rfl)]⟩

/-- The texts without slashes of a length within bounds. -/
def slashless (least most : Option Int) : Language Char :=
  {text | '/' ∉ text ∧ WithinBounds least most text.length}

section Lengths

variable (low high : Option Nat)

theorem leastText_natural : leastText (low.map Int.ofNat) = (low.getD 0).repr.toList := by
  cases low <;> rfl

theorem boundsOf_natural : boundsOf (leastText (low.map Int.ofNat)) (mostText (high.map Int.ofNat)) =
    if roundLimit ≤ low.getD 0 || high.any fun n => roundLimit ≤ n then .error .tooLarge
    else if high.any fun n => n < low.getD 0 then refuse
    else .ok (low.getD 0, high) := by
  have hmost : (if (mostText (high.map Int.ofNat)).isEmpty then none
      else some (Text.numberOf 10 (mostText (high.map Int.ofNat)))) = high := by
    cases high with
    | none => rfl
    | some n =>
        have htext : mostText ((some n).map Int.ofNat) = n.repr.toList := rfl
        have hne : n.repr.toList.isEmpty = false := by
          rw [List.isEmpty_eq_false_iff, Nat.toList_repr]
          exact Nat.toDigits_ne_nil
        rw [htext, hne, numberOf_repr]
        rfl
  simp only [boundsOf, hmost, leastText_natural, numberOf_repr]

theorem isDigit_leastText : ∀ c ∈ leastText (low.map Int.ofNat), c.isDigit = true := by
  rw [leastText_natural]
  exact isDigit_of_mem_repr _

theorem isDigit_mostText : ∀ c ∈ mostText (high.map Int.ofNat), c.isDigit = true := by
  cases high with
  | none => simp [mostText]
  | some n => exact isDigit_of_mem_repr n

variable {low high}

theorem withinBounds_natural {size : Nat} :
    WithinBounds (low.map Int.ofNat) (high.map Int.ofNat) size ↔
      low.getD 0 ≤ size ∧ ∀ n, high = some n → size ≤ n := by
  constructor
  · intro h
    constructor
    · cases low with
      | none => exact Nat.zero_le size
      | some n => exact Int.ofNat_le.1 (h.least n rfl)
    · rintro n rfl
      exact Int.ofNat_le.1 (h.most n rfl)
  · rintro ⟨hleast, hmost⟩
    constructor
    · intro n hn
      obtain ⟨m, rfl, rfl⟩ := Option.map_eq_some_iff.1 hn
      exact Int.ofNat_le.2 hleast
    · intro n hn
      obtain ⟨m, rfl, rfl⟩ := Option.map_eq_some_iff.1 hn
      exact Int.ofNat_le.2 (hmost m rfl)

/-- Bounds that are read as such bound the length of texts without slashes. -/
theorem denotes_of_boundsOf {bounds : Nat × Option Nat}
    (h : boundsOf (leastText (low.map Int.ofNat)) (mostText (high.map Int.ofNat)) = .ok bounds) :
    Denotes (String.ofList (lengthBody (leastText (low.map Int.ofNat))
      (mostText (high.map Int.ofNat)))) (slashless (low.map Int.ofNat) (high.map Int.ofNat)) := by
  have hbraces := fun rest => (readBraces_digits (isDigit_leastText low) (isDigit_mostText high)
    rest).trans (congrArg (Except.map _) h)
  have hdenotes := denotes_lengthBody (isBound_toString _) (isBound_mostText _) hbraces
  rw [boundsOf_natural] at h
  split at h
  · cases h
  · split at h
    · cases h
    · next horder =>
        obtain rfl := Except.ok.inj h
        refine hdenotes.congr fun text => mem_slashless.trans (and_congr_right fun _ => ?_)
        rw [withinBounds_natural]
        refine and_congr_right fun hleast => ?_
        cases high with
        | none => simp
        | some n =>
            have hn : low.getD 0 ≤ n := by simpa using horder
            simp only [Option.map_some, Option.some.injEq, forall_eq']
            omega

end Lengths

/-- The pattern of bounds that are not negative, if it is an expression, takes the texts without
slashes within them. -/
theorem denotes_lengthPattern {least most : Option Int} (hleast : IsNatural least)
    (hmost : IsNatural most) {node : Node}
    (h : Pattern.read (lengthPattern least most) = .ok node) :
    Denotes (String.ofList (lengthBody (leastText least) (mostText most)))
      (slashless least most) := by
  obtain ⟨low, rfl⟩ := hleast.exists_eq
  obtain ⟨high, rfl⟩ := hmost.exists_eq
  cases hbounds : boundsOf (leastText (low.map Int.ofNat)) (mostText (high.map Int.ofNat)) with
  | ok bounds => exact denotes_of_boundsOf hbounds
  | error e =>
      have hrefused := fun rest => (readBraces_digits (isDigit_leastText low)
        (isDigit_mostText high) rest).trans (congrArg (Except.map _) hbounds)
      rw [lengthPattern_eq] at h
      exact absurd h (read_lengthBody_ne_ok (isBound_toString _) (isBound_mostText _) hrefused node)

/-- The bound, if there is one, is a number of rounds that a repetition can have. -/
def IsRounds (bound : Option Int) : Prop :=
  ∀ n, bound = some n → 0 ≤ n ∧ n < roundLimit

theorem IsRounds.isNatural {bound : Option Int} (h : IsRounds bound) : IsNatural bound :=
  fun n hn => (h n hn).1

/-- A text within such bounds has their pattern exactly if it has no slashes. -/
theorem occursIn_lengthPattern {least most : Option Int} (hleast : IsRounds least)
    (hmost : IsRounds most) {s : String} (h : WithinBounds least most s.length) :
    OccursIn (lengthPattern least most) s ↔ '/' ∉ s.toList := by
  have hlow := hleast
  have hhigh := hmost
  obtain ⟨low, rfl⟩ := hleast.isNatural.exists_eq
  obtain ⟨high, rfl⟩ := hmost.isNatural.exists_eq
  have hsize := withinBounds_natural.1 h
  have hbounds : boundsOf (leastText (low.map Int.ofNat)) (mostText (high.map Int.ofNat)) =
      .ok (low.getD 0, high) := by
    have hlow' : low.getD 0 < roundLimit := by
      cases low with
      | none => decide
      | some n => exact Int.ofNat_lt.1 (hlow n rfl).2
    have hhigh' : ∀ n, high = some n → n < roundLimit := by
      rintro n rfl
      exact Int.ofNat_lt.1 (hhigh n rfl).2
    have horder : ∀ n, high = some n → low.getD 0 ≤ n := fun n hn => hsize.1.trans (hsize.2 n hn)
    rw [boundsOf_natural, if_neg, if_neg]
    · cases high <;> simp_all
    · cases high <;> simp_all
  rw [lengthPattern_eq, (denotes_of_boundsOf hbounds).occursIn]
  constructor
  · rintro (⟨hslash, -⟩ | ⟨line, ⟨hslash, -⟩, htext⟩)
    · exact hslash
    · rw [htext]
      simp [hslash]
  · intro hslash
    exact .inl ⟨hslash, by rw [String.length_toList]; exact h⟩

theorem occursIn_default {s : String} : OccursIn "^([^/]+)$" s ↔ s ≠ "" ∧ '/' ∉ s.toList := by
  have hpieces : ∀ w, w ∈ exactly (· != '/') 1 * upTo (· != '/') none ↔ '/' ∉ w ∧ w ≠ [] := by
    intro w
    rw [mem_slashless, Nat.one_le_iff_ne_zero, ne_eq, List.length_eq_zero_iff]
    simp
  have hempty : s.toList = [] ↔ s = "" := by simp
  have hdenotes := denotes_slashless_nonempty.occursIn s
  rw [show "^([^/]+)$" = "^" ++ "([^/]+)" ++ "$" from rfl, hdenotes, ne_eq, ← hempty]
  simp only [hpieces]
  constructor
  · rintro (⟨hslash, hne⟩ | ⟨line, ⟨hslash, hne⟩, htext⟩)
    · exact ⟨hne, hslash⟩
    · rw [htext]
      simp [hslash]
  · rintro ⟨hne, hslash⟩
    exact .inl ⟨hslash, hne⟩

/-! ## Patterns by what is declared -/

section Declared

variable {p : Parameter}

theorem matchPattern_of_pattern {source : String} (hpattern : p.pattern = some source)
    (hne : source ≠ "") : p.matchPattern = source := by
  have hfilter : p.pattern.filter (· ≠ "") = some source := by simp [hpattern, hne]
  rw [matchPattern, hfilter]

theorem matchPattern_of_enum (hpattern : p.DeclaresNoPattern) {members : List Value}
    (henum : p.enum = some members) (hne : members ≠ []) :
    p.matchPattern = memberPattern members := by
  cases members with
  | nil => exact absurd rfl hne
  | cons m rest =>
      rw [matchPattern, hpattern.filter, henum]
      rfl

/-- The pattern of a segment of a URI, within the bounds on its length if there are any. -/
def segmentPattern (p : Parameter) : String :=
  if p.minLength.isSome || p.maxLength.isSome then lengthPattern p.minLength p.maxLength
  else "^([^/]+)$"

/-- The parameter has no enumeration, or an empty one. -/
def ListsNothing (p : Parameter) : Prop :=
  ∀ members, p.enum = some members → members = []

theorem ListsNothing.of_none (h : p.enum = none) : p.ListsNothing := fun members hmembers => by
  rw [h] at hmembers
  cases hmembers

theorem matchPattern_of_listsNothing (hpattern : p.DeclaresNoPattern) (hnothing : p.ListsNothing) :
    p.matchPattern = (typePattern? p.type).getD p.segmentPattern := by
  have henum : p.enum = none ∨ p.enum = some [] := by
    cases h : p.enum with
    | none => exact .inl rfl
    | some members => exact .inr (congrArg some (hnothing members h))
  rw [matchPattern, hpattern.filter]
  rcases henum with henum | henum <;> rw [henum] <;> cases typePattern? p.type <;> rfl

theorem language_of_enum (hpattern : p.DeclaresNoPattern) {members : List Value}
    (henum : p.enum = some members) (hne : members ≠ []) :
    p.language = anyOf (fun m => {m.shown.toList}) members := by
  obtain ⟨body, heq, hbody⟩ := denotes_memberPattern hne
  exact language_eq ((matchPattern_of_enum hpattern henum hne).trans heq) hbody

theorem withinBounds_of_mem_language (hpattern : p.DeclaresNoPattern) (henum : p.enum = none)
    (htype : typePattern? p.type = none) (hleast : IsNatural p.minLength)
    (hmost : IsNatural p.maxLength) {text : List Char} (h : text ∈ p.language) :
    WithinBounds p.minLength p.maxLength text.length := by
  have hmatch := matchPattern_of_listsNothing hpattern (.of_none henum)
  rw [htype, Option.getD_none] at hmatch
  unfold segmentPattern at hmatch
  split at hmatch
  · obtain ⟨node, hnode, -⟩ := id h
    rw [hmatch] at hnode
    have hbody := denotes_lengthPattern hleast hmost hnode
    rw [language_eq (hmatch.trans (lengthPattern_eq _ _)) hbody] at h
    exact h.2
  · next hbounds =>
      have hnone : p.minLength = none ∧ p.maxLength = none := by simpa using hbounds
      exact ⟨by simp [hnone.1], by simp [hnone.2]⟩

/-- A pattern that is not declared is found in a text exactly if it matches the text in full, or
what is before a line feed at its end. -/
theorem occursIn_matchPattern (hpattern : p.DeclaresNoPattern) (hexpression : p.HasExpression)
    (s : String) : OccursIn p.matchPattern s ↔
      s.toList ∈ p.language ∨ ∃ line ∈ p.language, s.toList = line ++ ['\n'] := by
  obtain ⟨node, hread⟩ := hexpression
  obtain ⟨body, L, heq, hbody⟩ := p.isAnchored_matchPattern hpattern.filter hread
  rw [language_eq heq hbody, heq]
  exact hbody.occursIn s

end Declared

/-! ## Texts that a parameter accepts -/

theorem checkText_eq_ok_iff {p : Parameter} {s : String} : p.checkText s = .ok () ↔
    WithinBounds p.minLength p.maxLength s.length ∧ OccursIn p.matchPattern s := by
  rw [checkText, Except.then_eq_ok_iff, Except.then_eq_ok_iff, Except.bind_eq_ok_iff]
  simp only [Validation.requireBound_eq_ok_iff, Validation.require_eq_ok_iff, decide_eq_true_eq]
  constructor
  · rintro ⟨hleast, hmost, hfound⟩
    exact ⟨⟨hleast, hmost⟩, hfound⟩
  · rintro ⟨hwithin, hfound⟩
    exact ⟨hwithin.least, hwithin.most, hfound⟩

/-- A text is accepted if the enumeration has it, its length is within the bounds and the pattern
is found in it. -/
theorem validate_text_eq_ok_iff {p : Parameter} (hvalue : p.valueType = none) (r : Registry)
    (s : String) : p.validate r (.text s) = .ok () ↔ ListsText p.enum s ∧
      WithinBounds p.minLength p.maxLength s.length ∧ OccursIn p.matchPattern s := by
  simp only [validate, hvalue, checkOwn]
  rw [Except.then_eq_ok_iff, requireMember_text_eq_ok_iff, checkText_eq_ok_iff]

end Parameter

end Raml
