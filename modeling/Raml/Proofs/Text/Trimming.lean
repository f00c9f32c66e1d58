import Mathlib.Data.List.TakeWhile
import Raml.Text.Blank
import Raml.Text.Pieces

/-! # Trimmed texts

Trimming takes only blanks, and only from the ends. So what is not blank is in
the trimmed text exactly if it is in the text, its first and last characters
are the first and last of the text that are not blank, and a marker without
blanks occurs in the one exactly if it occurs in the other.
-/

namespace Raml.Text

/-! ## Blanks at the ends -/

theorem exists_dropBlank (cs : List Char) :
    ∃ blanks, (∀ c ∈ blanks, isBlank c = true) ∧ cs = blanks ++ dropBlank cs := by
  induction cs with
  | nil => exact ⟨[], by simp, rfl⟩
  | cons c rest ih =>
      by_cases h : isBlank c = true
      · obtain ⟨blanks, hb, hrest⟩ := ih
        refine ⟨c :: blanks, by simpa [h] using hb, ?_⟩
        simpa [dropBlank, h] using hrest
      · exact ⟨[], by simp, by simp [dropBlank, h]⟩

theorem exists_dropBlankEnd (cs : List Char) :
    ∃ blanks, (∀ c ∈ blanks, isBlank c = true) ∧ cs = dropBlankEnd cs ++ blanks := by
  obtain ⟨blanks, hb, hcs⟩ := exists_dropBlank cs.reverse
  refine ⟨blanks.reverse, by simpa using hb, ?_⟩
  rw [dropBlankEnd, ← List.reverse_append]
  exact List.reverse_eq_iff.1 hcs

theorem dropBlankEnd_append_blanks (cs : List Char) {blanks : List Char}
    (h : ∀ c ∈ blanks, isBlank c = true) : dropBlankEnd (cs ++ blanks) = dropBlankEnd cs := by
  unfold dropBlankEnd
  rw [List.reverse_append, List.dropWhile_append_of_pos (by simpa using h)]

/-- Both ends are trimmed however much the far end has been trimmed before. -/
theorem trim_trimEnd (s : String) : trim (trimEnd s) = trim s := by
  obtain ⟨blanks, hb, hs⟩ := exists_dropBlankEnd s.toList
  have hsplit : dropBlankEnd (dropBlank s.toList) =
      dropBlankEnd (dropBlank (dropBlankEnd s.toList)) := by
    conv => lhs; rw [hs]
    rw [dropBlank, List.dropWhile_append]
    split
    · next hnil =>
        rw [List.isEmpty_iff] at hnil
        rw [List.dropWhile_eq_nil_iff.2 hb, dropBlank, hnil]
    · exact dropBlankEnd_append_blanks _ hb
  simp [trim, trimEnd, hsplit]

theorem trim_eq_self {s : String} {first last : Char} {rest front : List Char}
    (hs : s.toList = first :: rest) (hfirst : isBlank first = false)
    (hs' : s.toList = front ++ [last]) (hlast : isBlank last = false) : trim s = s := by
  have hstart : dropBlank s.toList = s.toList := by simp [dropBlank, hs, hfirst]
  have hend : dropBlankEnd s.toList = s.toList := by simp [dropBlankEnd, hs', hlast]
  rw [trim, hstart, hend, String.ofList_toList]

/-! ## What is not blank -/

theorem find?_append_blanks (cs : List Char) {blanks : List Char}
    (h : ∀ c ∈ blanks, isBlank c = true) :
    (cs ++ blanks).find? (!isBlank ·) = cs.find? (!isBlank ·) := by
  have hnone : blanks.find? (!isBlank ·) = none := by
    rw [List.find?_eq_none]
    intro c hc
    simp [h c hc]
  rw [List.find?_append, hnone, Option.or_none]

theorem find?_blanks_append {blanks : List Char} (h : ∀ c ∈ blanks, isBlank c = true)
    (cs : List Char) : (blanks ++ cs).find? (!isBlank ·) = cs.find? (!isBlank ·) := by
  have hnone : blanks.find? (!isBlank ·) = none := by
    rw [List.find?_eq_none]
    intro c hc
    simp [h c hc]
  rw [List.find?_append, hnone, Option.none_or]

theorem head?_dropBlank (cs : List Char) : (dropBlank cs).head? = cs.find? (!isBlank ·) := by
  induction cs with
  | nil => rfl
  | cons c rest ih =>
      by_cases h : isBlank c = true
      · simpa [dropBlank, h] using ih
      · simp [dropBlank, h]

theorem getLast?_dropBlankEnd (cs : List Char) :
    (dropBlankEnd cs).getLast? = cs.reverse.find? (!isBlank ·) := by
  rw [dropBlankEnd, List.getLast?_reverse]
  exact head?_dropBlank cs.reverse

/-- A trimmed text starts with the first character of the text that is not blank. -/
theorem head?_trim (s : String) : (trim s).toList.head? = s.toList.find? (!isBlank ·) := by
  obtain ⟨before, hbefore, hs⟩ := exists_dropBlank s.toList
  obtain ⟨after, hafter, hcs⟩ := exists_dropBlankEnd (dropBlank s.toList)
  simp only [trim, String.toList_ofList]
  cases hz : dropBlankEnd (dropBlank s.toList) with
  | nil =>
      rw [hs, find?_blanks_append hbefore, hcs, hz, find?_append_blanks _ hafter]
      rfl
  | cons c rest =>
      rw [← head?_dropBlank, hcs, hz]
      rfl

/-- It ends with the last one, as does the text trimmed at its end alone. -/
theorem getLast?_trim (s : String) :
    (trim s).toList.getLast? = (trimEnd s).toList.getLast? := by
  obtain ⟨blanks, hb, hs⟩ := exists_dropBlank s.toList
  simp only [trim, trimEnd, String.toList_ofList, getLast?_dropBlankEnd]
  conv => rhs; rw [hs, List.reverse_append]
  exact (find?_append_blanks _ (by simpa using hb)).symm

theorem mem_trim_iff {s : String} {c : Char} (h : isBlank c = false) :
    c ∈ (trim s).toList ↔ c ∈ s.toList := by
  obtain ⟨before, hbefore, hs⟩ := exists_dropBlank s.toList
  obtain ⟨after, hafter, hcs⟩ := exists_dropBlankEnd (dropBlank s.toList)
  have hnot : ∀ {cs : List Char}, (∀ d ∈ cs, isBlank d = true) → c ∉ cs := fun hcs hc => by
    simp [hcs c hc] at h
  simp only [trim, String.toList_ofList]
  conv => rhs; rw [hs, hcs]
  simp [hnot hbefore, hnot hafter]

/-! ## Markers -/

theorem infix_of_append_infix {marker before cs : List Char} {c : Char}
    (hc : marker.head? = some c) (h : c ∉ before) (hm : marker <:+: before ++ cs) :
    marker <:+: cs := by
  induction before with
  | nil => exact hm
  | cons d rest ih =>
      rw [List.cons_append, List.infix_cons_iff] at hm
      rcases hm with hp | hm
      · obtain ⟨m, ms, rfl⟩ : ∃ m ms, marker = m :: ms := by
          cases marker with
          | nil => simp at hc
          | cons m ms => exact ⟨m, ms, rfl⟩
        simp only [List.head?_cons, Option.some.injEq] at hc
        have hd := (List.cons_prefix_cons.1 hp).1
        exact absurd (by rw [← hc, hd]; simp) h
      · exact ih (fun hr => h (List.mem_cons_of_mem _ hr)) hm

theorem infix_of_infix_append {marker cs after : List Char} {c : Char}
    (hc : marker.getLast? = some c) (h : c ∉ after) (hm : marker <:+: cs ++ after) :
    marker <:+: cs := by
  rw [← List.reverse_infix] at hm ⊢
  rw [List.reverse_append] at hm
  exact infix_of_append_infix (c := c) (by simpa using hc) (by simpa using h) hm

/-- A marker without blanks at its ends occurs in a text exactly if it does once the text is
trimmed. -/
theorem infix_trim_iff (marker : List Char) {a b : Char} (ha : marker.head? = some a)
    (hb : marker.getLast? = some b) (hna : isBlank a = false) (hnb : isBlank b = false)
    (s : String) : marker <:+: (trim s).toList ↔ marker <:+: s.toList := by
  obtain ⟨before, hbefore, hs⟩ := exists_dropBlank s.toList
  obtain ⟨after, hafter, hcs⟩ := exists_dropBlankEnd (dropBlank s.toList)
  simp only [trim, String.toList_ofList]
  constructor
  · intro hm
    rw [hs, hcs]
    exact (hm.trans (List.infix_append' [] _ after)).trans (List.suffix_append before _).isInfix
  · intro hm
    rw [hs] at hm
    have hin := infix_of_append_infix ha (fun h => by simp [hbefore a h] at hna) hm
    rw [hcs] at hin
    exact infix_of_infix_append hb (fun h => by simp [hafter b h] at hnb) hin

theorem beforeLast?_isSome_iff (marker : List Char) (hne : marker ≠ []) (cs : List Char) :
    (beforeLast? marker cs).isSome = true ↔ marker <:+: cs := by
  induction cs with
  | nil => simp [beforeLast?, hne]
  | cons c rest ih =>
      rw [List.infix_cons_iff, ← ih, beforeLast?]
      cases beforeLast? marker rest with
      | some found => simp
      | none => simp

/-! ## Suffixes -/

theorem toList_of_endsIn {c : Char} {s : String} (h : endsIn c s = true) :
    s.toList = (removeSuffix c s).toList ++ [c] := by
  simp only [endsIn, decide_eq_true_eq] at h
  simp only [removeSuffix, h, if_true, String.toList_ofList]
  obtain ⟨front, hfront⟩ := List.getLast?_eq_some_iff.1 h
  simp [hfront]

theorem removeSuffix_of_not_endsIn {c : Char} {s : String} (h : endsIn c s = false) :
    removeSuffix c s = s := by
  simp only [endsIn, decide_eq_false_iff_not] at h
  simp [removeSuffix, h]

end Raml.Text
