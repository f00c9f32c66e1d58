import Raml.Proofs.Parameter.Languages

/-! # Placeholders and their parameters

A resource matches a URI by the pattern of its placeholder's parameter; the
parameter checks a value by the same pattern, and by its enumeration and its
bounds besides. Whatever the parameter accepts is matched in the URI. The other
way around what is matched is accepted if its length is within the bounds, which
the pattern sees to itself where it follows from them.
-/

namespace Raml

open Pattern

/-! ## Templates that end in a placeholder -/

namespace Template

/-- Characters that a template has as they are, whatever placeholder follows them. -/
structure IsStem (stem : List Char) : Prop where
  brace : '\x7b' ∉ stem
  tilde : stem.getLast? ≠ some '~'

theorem IsStem.tail {c : Char} {stem : List Char} (h : IsStem (c :: stem)) : IsStem stem where
  brace hmem := h.brace (List.mem_cons_of_mem c hmem)
  tilde hlast := by
    cases stem with
    | nil => cases hlast
    | cons d stem => exact h.tilde hlast

theorem ofChars_literal {c : Char} {cs : List Char} (h : readPlaceholder? (c :: cs) = none) :
    ofChars (c :: cs) = .literal c :: ofChars cs := by
  rw [ofChars]
  split
  · next hsome => rw [h] at hsome; cases hsome
  · rfl

theorem readPlaceholder?_stem {c : Char} {stem : List Char} (h : IsStem (c :: stem))
    (rest : List Char) : readPlaceholder? (c :: (stem ++ '\x7b' :: rest)) = none := by
  have hc : c ≠ '\x7b' := fun heq => h.brace (heq ▸ List.mem_cons_self)
  unfold readPlaceholder?
  split
  · next heq =>
      obtain ⟨rfl, hrest⟩ := List.cons.inj heq
      cases stem with
      | nil => exact absurd rfl h.tilde
      | cons d stem =>
          have hd : d = '\x7b' := (List.cons.inj hrest).1
          exact absurd (List.mem_cons_of_mem _ (hd ▸ List.mem_cons_self)) h.brace
  · next heq => exact absurd (List.cons.inj heq).1 hc
  · rfl

theorem ofChars_stem {stem : List Char} (h : IsStem stem) (rest : List Char) :
    ofChars (stem ++ '\x7b' :: rest) = stem.map .literal ++ ofChars ('\x7b' :: rest) := by
  induction stem with
  | nil => rfl
  | cons c stem ih =>
      rw [List.cons_append, ofChars_literal (readPlaceholder?_stem h rest), ih h.tail]
      rfl

theorem readKey?_append {key : String} (h : '\x7d' ∉ key.toList) (rest : List Char) :
    readKey? (key.toList ++ '\x7d' :: rest) = some (key, rest) := by
  have hkey : ∀ c ∈ key.toList, decide (c ≠ '\x7d') = true := fun c hc =>
    decide_eq_true (ne_of_mem_of_not_mem hc h)
  rw [readKey?, List.dropWhile_append_of_pos hkey, List.takeWhile_append_of_pos hkey]
  simp

theorem ofChars_placeholder {key : String} (h : '\x7d' ∉ key.toList) :
    ofChars ('\x7b' :: (key.toList ++ ['\x7d'])) = [.placeholder false key] := by
  have hread : readPlaceholder? ('\x7b' :: (key.toList ++ ['\x7d'])) =
      some (.placeholder false key, []) :=
    congrArg (Option.map _) (readKey?_append h [])
  rw [ofChars]
  split
  · next part rest hsome =>
      rw [hread] at hsome
      obtain ⟨rfl, rfl⟩ := Prod.mk.inj (Option.some.inj hsome)
      rw [ofChars]
      rfl
  · next hnone => rw [hread] at hnone; cases hnone

theorem mem_singleton_mul {stem w : List Char} {L : Language Char} :
    w ∈ ({stem} : Language Char) * L ↔ ∃ rest ∈ L, stem ++ rest = w := by
  rw [Language.mem_mul]
  constructor
  · rintro ⟨_, rfl, rest, hrest, hw⟩
    exact ⟨rest, hrest, hw⟩
  · rintro ⟨rest, hrest, hw⟩
    exact ⟨stem, rfl, rest, hrest, hw⟩

theorem denotes_literals {parameters : Parameters} {t : Template} {L : Language Char}
    (h : Denotes (String.join (t.map (partPattern parameters))) L) (stem : List Char) :
    Denotes (String.join ((stem.map TemplatePart.literal ++ t).map (partPattern parameters)))
      ({stem} * L) := by
  induction stem with
  | nil =>
      refine h.congr fun w => ?_
      rw [mem_singleton_mul]
      simp
  | cons c stem ih =>
      have hliteral : Denotes (partPattern parameters (.literal c)) {[c]} := by
        have hescape := denotes_escape c.toString
        rw [Char.toString_eq_singleton, String.toList_singleton] at hescape
        exact hescape
      rw [List.map_cons, List.cons_append, List.map_cons, String.join_cons]
      refine (hliteral.append ih).congr fun w => ?_
      rw [mem_singleton_mul, mem_singleton_mul]
      simp only [mem_singleton_mul, exists_exists_and_eq_and, List.cons_append, List.nil_append]

end Template

/-! ## Resources that end in a placeholder -/

/-- The URI of a resource ends in the placeholder of a parameter, behind a stem of literal
characters. -/
structure Resource.EndsIn (r : Resource) (stem key : String) (p : Parameter) : Prop where
  uri : r.uri = stem ++ "\x7b" ++ key ++ "\x7d"
  declared : r.uriParameters.get? key = some p
  isStem : Template.IsStem stem.toList
  query : '?' ∉ stem.toList
  line : '\n' ∉ stem.toList
  closed : '\x7d' ∉ key.toList

section EndsIn

variable {r : Resource} {stem key : String} {p : Parameter}

theorem Resource.EndsIn.ofUri (h : r.EndsIn stem key p) : Template.ofUri r.uri =
    stem.toList.map TemplatePart.literal ++ [.placeholder false key] := by
  have huri : r.uri.toList = stem.toList ++ '\x7b' :: (key.toList ++ ['\x7d']) := by
    rw [h.uri]
    simp
  rw [Template.ofUri, huri, Template.ofChars_stem h.isStem, Template.ofChars_placeholder h.closed]

/-- Behind the stem the resource matches what the parameter's pattern matches in full. The other
parameters do not matter. -/
theorem Resource.EndsIn.matchesUri (h : r.EndsIn stem key p) (hpattern : p.DeclaresNoPattern)
    (hexpression : p.HasExpression) {s : String} (hquery : '?' ∉ s.toList)
    (hline : '\n' ∉ s.toList) :
    ∃ b, r.matchesUri (stem ++ s) = .ok b ∧ (b = true ↔ s.toList ∈ p.language) := by
  have hplaceholder := Template.denotes_declared h.declared hpattern hexpression false
  have hlast : Denotes (String.join
      ([.placeholder false key].map (Template.partPattern r.uriParameters)))
      ((TemplatePart.placeholder false key).language r.uriParameters) := by
    simpa using hplaceholder
  obtain ⟨node, hread, -, hmatches⟩ := (Template.denotes_literals hlast stem.toList).read
  have hquery' : '?' ∉ (stem ++ s).toList := by simp [h.query, hquery]
  have hline' : '\n' ∉ (stem ++ s).toList := by simp [h.line, hline]
  have huri : Json.Assertion.patternOf r.uriPattern = .ok node := by
    rw [Resource.uriPattern, h.ofUri]
    exact patternOf_eq_ok_iff.2 hread
  refine ⟨node.matchesStart (stem ++ s), ?_, ?_⟩
  · rw [Resource.matchesUri, huri, withoutQuery_of_not_mem hquery']
    rfl
  · rw [hmatches _ hline', Template.mem_singleton_mul, String.toList_append]
    simp only [List.append_cancel_left_eq, exists_eq_right]
    exact (TemplatePart.fits_declared h.declared).trans (or_iff_left (by simp))

end EndsIn

/-! ## Enumerations and bounds -/

/-- The enumeration of the parameter, if there is one, is a list of texts, at least one. -/
def Parameter.EnumeratesTexts (p : Parameter) : Prop :=
  ∀ members, p.enum = some members → members ≠ [] ∧ ∀ m ∈ members, ∃ t, m = .text t

/-- The parameter has no bounds on the length, or its pattern follows from them: neither an
enumeration nor the type has a say, and they are not negative. -/
def Parameter.LeavesLengthToPattern (p : Parameter) : Prop :=
  p.minLength = none ∧ p.maxLength = none ∨
    p.enum = none ∧ Parameter.typePattern? p.type = none ∧ Parameter.IsNatural p.minLength ∧
      Parameter.IsNatural p.maxLength

namespace Parameter

variable {p : Parameter}

theorem listsText_of_mem_language (hpattern : p.DeclaresNoPattern) (henum : p.EnumeratesTexts)
    {s : String} (h : s.toList ∈ p.language) : ListsText p.enum s := by
  intro members hmembers
  obtain ⟨hne, htexts⟩ := henum members hmembers
  rw [language_of_enum hpattern hmembers hne] at h
  obtain ⟨m, hm, hshown⟩ := h
  obtain ⟨t, rfl⟩ := htexts m hm
  have hs : s = t := String.toList_inj.1 hshown
  exact hs ▸ hm

theorem withinBounds_of_leavesLength (hpattern : p.DeclaresNoPattern)
    (hlength : p.LeavesLengthToPattern) {s : String} (h : s.toList ∈ p.language) :
    WithinBounds p.minLength p.maxLength s.length := by
  rcases hlength with ⟨hleast, hmost⟩ | ⟨henum, htype, hleast, hmost⟩
  · exact ⟨by simp [hleast], by simp [hmost]⟩
  · rw [← String.length_toList]
    exact withinBounds_of_mem_language hpattern henum htype hleast hmost h

end Parameter

/-! ## Matching and validation -/

/-- A resource whose URI ends in a placeholder matches whatever the placeholder's parameter accepts.
What it matches is accepted if its length is within the bounds, and in any case where the pattern
sees to them. -/
theorem matchesUri_agrees_with_validate {r : Resource} {stem key : String} {p : Parameter}
    (hr : r.EndsIn stem key p) (hvalue : p.valueType = none) (hpattern : p.DeclaresNoPattern)
    (hexpression : p.HasExpression) {s : String} (hquery : '?' ∉ s.toList)
    (hline : '\n' ∉ s.toList) (registry : Registry) :
    ∃ b, r.matchesUri (stem ++ s) = .ok b ∧
      (p.validate registry (.text s) = .ok () → b = true) ∧
      (p.EnumeratesTexts → (p.validate registry (.text s) = .ok () ↔
        b = true ∧ WithinBounds p.minLength p.maxLength s.length)) ∧
      (p.EnumeratesTexts → p.LeavesLengthToPattern →
        (p.validate registry (.text s) = .ok () ↔ b = true)) := by
  obtain ⟨b, hmatches, hlanguage⟩ := hr.matchesUri hpattern hexpression hquery hline
  have hfound : OccursIn p.matchPattern s ↔ b = true := by
    rw [Parameter.occursIn_matchPattern hpattern hexpression, hlanguage]
    -- besides what the pattern matches in full, a search takes a line feed behind it
    refine or_iff_left fun hfeed => ?_
    obtain ⟨line, -, htext⟩ := hfeed
    rw [htext] at hline
    simp at hline
  have haccepted := Parameter.validate_text_eq_ok_iff hvalue registry s
  rw [hfound] at haccepted
  have hlisted : p.EnumeratesTexts → (p.validate registry (.text s) = .ok () ↔
      b = true ∧ WithinBounds p.minLength p.maxLength s.length) := by
    intro henum
    rw [haccepted]
    constructor
    · exact fun h => ⟨h.2.2, h.2.1⟩
    · intro h
      exact ⟨Parameter.listsText_of_mem_language hpattern henum (hlanguage.1 h.1), h.2, h.1⟩
  refine ⟨b, hmatches, fun h => (haccepted.1 h).2.2, hlisted, fun henum hlength => ?_⟩
  rw [hlisted henum]
  refine and_iff_left_of_imp fun h => ?_
  exact Parameter.withinBounds_of_leavesLength hpattern hlength (hlanguage.1 h)

def songCode : Parameter :=
  { Api.bareParameter "code" "string" none with minLength := some 2, maxLength := some 4 }

def songByCode : Resource :=
  Api.bareResource "/songs/\x7bcode\x7d" [("code", songCode)]

/-- A code is accepted exactly if the resource matches it in a URI. -/
theorem matchesUri_agrees_with_validate_songs :
    ∃ b, songByCode.matchesUri "/songs/ab12" = .ok b ∧
      (songCode.validate [] (.text "ab12") = .ok () ↔ b = true) := by
  have hends : songByCode.EndsIn "/songs/" "code" songCode :=
    ⟨rfl, rfl, ⟨by decide, by decide⟩, by decide, by decide, by decide⟩
  have hread : ((Pattern.read songCode.matchPattern).toOption.isSome) = true := by decide +kernel
  obtain ⟨node, hnode⟩ := Option.isSome_iff_exists.1 hread
  have hexpression : songCode.HasExpression := ⟨node, Except.eq_ok_of_toOption hnode⟩
  have hpattern : songCode.DeclaresNoPattern := fun _ h => by cases h
  obtain ⟨b, hmatches, -, -, hiff⟩ := matchesUri_agrees_with_validate hends rfl hpattern hexpression
    (by decide : '?' ∉ "ab12".toList) (by decide) []
  have henum : songCode.EnumeratesTexts := fun _ h => by cases h
  have hlength : songCode.LeavesLengthToPattern :=
    .inr ⟨rfl, rfl, fun n h => by cases h; decide, fun n h => by cases h; decide⟩
  exact ⟨b, hmatches, hiff henum hlength⟩

def digitParameter : Parameter :=
  { Api.bareParameter "p" "integer" none with maxLength := some 1 }

def byDigit : Resource :=
  Api.bareResource "/x/\x7bp\x7d" [("p", digitParameter)]

/-- The pattern of a type does not see to the bounds on the length. -/
theorem not_always_agree_on_parameters :
    ¬ ∀ (r : Resource) (p : Parameter) (s : String), r.EndsIn "/x/" "p" p → p.valueType = none →
      p.DeclaresNoPattern → p.HasExpression → s ≠ "" → '/' ∉ s.toList → '?' ∉ s.toList →
        '\n' ∉ s.toList → ∀ registry, (r.matchesUri ("/x/" ++ s) = .ok true ↔
          p.validate registry (.text s) = .ok ()) := by
  intro hclaim
  have hends : byDigit.EndsIn "/x/" "p" digitParameter :=
    ⟨rfl, rfl, ⟨by decide, by decide⟩, by decide, by decide, by decide⟩
  have hread : ((Pattern.read digitParameter.matchPattern).toOption.isSome) = true := by
    decide +kernel
  obtain ⟨node, hnode⟩ := Option.isSome_iff_exists.1 hread
  have hmatches : byDigit.matchesUri ("/x/" ++ "12") = .ok true :=
    Except.eq_ok_of_toOption (by decide +kernel)
  have haccepted := (hclaim byDigit digitParameter "12" hends rfl (fun _ h => by cases h)
    ⟨node, Except.eq_ok_of_toOption hnode⟩ (by decide) (by decide) (by decide) (by decide) []).1
    hmatches
  have hrejected : (digitParameter.validate [] (.text "12")).toOption = none := by decide
  rw [haccepted] at hrejected
  cases hrejected

end Raml
