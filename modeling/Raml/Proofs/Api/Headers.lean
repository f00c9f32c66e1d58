import Raml.Header
import Raml.Proofs.DataType.Building
import Raml.Proofs.Text.Trimming

/-! # Header lines

A line holds a header exactly if, trimmed, it is the marker, a blank, a
supported version, at most one more blank and any number of letters. The letters
matter to version 1.0 alone, where they spell a kind of fragment or stand for the
default one. A header is written without further blanks, and what is written is
read as the same header.
-/

namespace Raml

open Text

/-! ## Letters and blanks -/

theorem Text.isBlank_of_isAlpha {c : Char} (h : c.isAlpha = true) : isBlank c = false := by
  have hcase : c.isUpper = true ∨ c.isLower = true := Bool.or_eq_true_iff.1 h
  have hrange : (65 ≤ c.toNat ∧ c.toNat ≤ 90) ∨ (97 ≤ c.toNat ∧ c.toNat ≤ 122) :=
    hcase.imp of_decide_eq_true fun hlower =>
      (Bool.and_eq_true_iff.1 hlower).imp of_decide_eq_true of_decide_eq_true
  simp only [isBlank, Bool.or_eq_false_iff, Bool.and_eq_false_iff, decide_eq_false_iff_not,
    beq_eq_false_iff_ne]
  omega

/-! ## Versions and kinds -/

theorem Version.ofText_eq_ok_iff {raw : String} {v : Version} :
    ofText raw = .ok v ↔ raw = v.text := by
  unfold ofText
  split
  · next h => cases v <;> simp [h, text]
  · split
    · next h => cases v <;> simp [h, text]
    · next h h' => cases v <;> simp [h, h', text]

namespace Fragment

theorem ofText_text (f : Fragment) : ofText f.text = f := by
  cases f <;> rfl

/-- Letters that spell no kind stand for the default one. -/
theorem ofText_of_unknown {letters : List Char} (h : ∀ f : Fragment, f.text.toList ≠ letters) :
    ofText (String.ofList letters) = .default := by
  have hnone : all.find? (fun f => f.text = String.ofList letters) = none := by
    rw [List.find?_eq_none]
    intro f _
    have hf : f.text ≠ String.ofList letters := fun heq =>
      h f (by rw [heq, String.toList_ofList])
    simpa using hf
  rw [ofText, hnone]
  rfl

theorem letters_text (f : Fragment) :
    f.text.toList ≠ [] ∧ ∀ c ∈ f.text.toList, c.isAlpha = true := by
  have hsome : f.text.toList.isEmpty = false := by cases f <;> rfl
  have hall : f.text.toList.all Char.isAlpha = true := by cases f <;> rfl
  exact ⟨List.isEmpty_eq_false_iff.1 hsome, List.all_eq_true.1 hall⟩

end Fragment

namespace Header

/-! ## The shape of a line -/

/-- Some characters are the marker, a blank, a version, at most one blank, and letters. -/
structure Shape (cs : List Char) (version : Version) (letters : List Char) : Prop where
  alpha : ∀ c ∈ letters, c.isAlpha = true
  spelled : ∃ blank gap, isBlank blank = true ∧ gap.length ≤ 1 ∧ (∀ c ∈ gap, isBlank c = true) ∧
    cs = "#%RAML".toList ++ blank :: (version.text.toList ++ gap ++ letters)

inductive Names : Version → List Char → Option Fragment → Prop
  | old (letters : List Char) : Names .v08 letters none
  | bare : Names .v10 [] none
  | known (f : Fragment) : Names .v10 f.text.toList (some f)
  | unknown {letters : List Char} : letters ≠ [] → (∀ f : Fragment, f.text.toList ≠ letters) →
      Names .v10 letters (some .default)

def Spells (cs : List Char) (h : Header) : Prop :=
  ∃ letters, Shape cs h.version letters ∧ Names h.version letters h.fragment

/-! ## Reading -/

def withoutGap : List Char → List Char
  | [] => []
  | c :: rest => if isBlank c then rest else c :: rest

theorem withoutGap_eq_iff {rest letters : List Char} (hletters : ∀ c ∈ letters, c.isAlpha = true) :
    withoutGap rest = letters ↔ ∃ gap : List Char,
      gap.length ≤ 1 ∧ (∀ c ∈ gap, isBlank c = true) ∧ rest = gap ++ letters := by
  constructor
  · rintro rfl
    cases rest with
    | nil => exact ⟨[], by simp, by simp, rfl⟩
    | cons c rest =>
        by_cases hc : isBlank c = true
        · exact ⟨[c], by simp, by simpa using hc, by simp [withoutGap, hc]⟩
        · exact ⟨[], by simp, by simp, by simp [withoutGap, hc]⟩
  · rintro ⟨gap, hlength, hgap, rfl⟩
    obtain rfl | ⟨c, rfl⟩ : gap = [] ∨ ∃ c, gap = [c] := by
      rw [← List.length_eq_zero_iff, ← List.length_eq_one_iff]
      omega
    · cases letters with
      | nil => rfl
      | cons c rest => simp [withoutGap, isBlank_of_isAlpha (hletters c List.mem_cons_self)]
    · simp [withoutGap, hgap c List.mem_cons_self]

theorem readParts?_marked (blank major minor : Char) (rest : List Char) :
    readParts? ("#%RAML".toList ++ blank :: major :: '.' :: minor :: rest) =
      if isBlank blank && isDecimalDigit major && isDecimalDigit minor &&
        (withoutGap rest).all Char.isAlpha then some ([major, '.', minor], withoutGap rest)
      else none := by
  cases rest <;> rfl

theorem exists_of_readParts? {cs : List Char} {parts : List Char × List Char}
    (h : readParts? cs = some parts) : ∃ blank major minor rest,
      cs = "#%RAML".toList ++ blank :: major :: '.' :: minor :: rest := by
  unfold readParts? at h
  split at h
  · exact ⟨_, _, _, _, rfl⟩
  · cases h

/-- A line's parts are read behind the marker and a blank, whatever the digits of the version. -/
theorem readParts?_eq_some_iff {cs version letters : List Char} :
    readParts? cs = some (version, letters) ↔
      (∀ c ∈ letters, c.isAlpha = true) ∧ ∃ blank major minor gap, isBlank blank = true ∧
        isDecimalDigit major = true ∧ isDecimalDigit minor = true ∧
        version = [major, '.', minor] ∧ gap.length ≤ 1 ∧ (∀ c ∈ gap, isBlank c = true) ∧
          cs = "#%RAML".toList ++ blank :: (version ++ gap ++ letters) := by
  constructor
  · intro h
    obtain ⟨blank, major, minor, rest, rfl⟩ := exists_of_readParts? h
    rw [readParts?_marked, Option.ite_none_right_eq_some] at h
    obtain ⟨htest, hparts⟩ := h
    obtain ⟨rfl, rfl⟩ := Prod.mk.inj (Option.some.inj hparts)
    simp only [Bool.and_eq_true, List.all_eq_true] at htest
    obtain ⟨⟨⟨hblank, hmajor⟩, hminor⟩, halpha⟩ := htest
    obtain ⟨gap, hlength, hgap, hrest⟩ := (withoutGap_eq_iff halpha).1 rfl
    refine ⟨halpha, blank, major, minor, gap, hblank, hmajor, hminor, rfl, hlength, hgap, ?_⟩
    simp [← hrest]
  · rintro ⟨halpha, blank, major, minor, gap, hblank, hmajor, hminor, rfl, hlength, hgap, rfl⟩
    have hrest : withoutGap (gap ++ letters) = letters :=
      (withoutGap_eq_iff halpha).2 ⟨gap, hlength, hgap, rfl⟩
    have htest : letters.all Char.isAlpha = true := List.all_eq_true.2 halpha
    have hread := readParts?_marked blank major minor (gap ++ letters)
    rw [hrest, hblank, hmajor, hminor, htest] at hread
    simpa using hread

theorem shape_iff {cs letters : List Char} {v : Version} :
    Shape cs v letters ↔ readParts? cs = some (v.text.toList, letters) := by
  rw [readParts?_eq_some_iff]
  constructor
  · rintro ⟨halpha, blank, gap, hblank, hlength, hgap, hcs⟩
    refine ⟨halpha, blank, ?_⟩
    cases v with
    | v08 => exact ⟨'0', '8', gap, hblank, by decide, by decide, rfl, hlength, hgap, hcs⟩
    | v10 => exact ⟨'1', '0', gap, hblank, by decide, by decide, rfl, hlength, hgap, hcs⟩
  · rintro ⟨halpha, blank, -, -, gap, hblank, -, -, -, hlength, hgap, hcs⟩
    exact ⟨halpha, blank, gap, hblank, hlength, hgap, hcs⟩

def named (v : Version) (letters : List Char) : Option Fragment :=
  if v = .v08 || letters.isEmpty then none else some (.ofText (String.ofList letters))

theorem names_iff {v : Version} {letters : List Char} {fragment : Option Fragment} :
    Names v letters fragment ↔ fragment = named v letters := by
  constructor
  · intro h
    cases h with
    | old letters => rfl
    | bare => rfl
    | known f =>
        have hne := (Fragment.letters_text f).1
        simp [named, hne, Fragment.ofText_text]
    | unknown hne hunknown =>
        simp [named, hne, Fragment.ofText_of_unknown hunknown]
  · rintro rfl
    cases v with
    | v08 => exact .old letters
    | v10 =>
        by_cases hne : letters = []
        · subst hne
          exact .bare
        · by_cases hknown : ∃ f : Fragment, f.text.toList = letters
          · obtain ⟨f, rfl⟩ := hknown
            simpa [named, hne, Fragment.ofText_text] using Names.known f
          · have hunknown : ∀ f : Fragment, f.text.toList ≠ letters := fun f hf => hknown ⟨f, hf⟩
            simpa [named, hne, Fragment.ofText_of_unknown hunknown] using
              Names.unknown hne hunknown

theorem ofLine_of_readParts? {line : String} {version letters : List Char}
    (h : readParts? (trim line).toList = some (version, letters)) :
    ofLine line =
      (Version.ofText (String.ofList version)).map fun v => ⟨v, named v letters⟩ := by
  simp only [ofLine, h, named]
  cases Version.ofText (String.ofList version) with
  | error e => rfl
  | ok v => cases hnone : (v = .v08 || letters.isEmpty) <;> simp [hnone, bind, Except.bind, Except.map]

/-- A line holds a header exactly if it spells it once trimmed. -/
theorem ofLine_eq_ok_iff {line : String} {h : Header} :
    ofLine line = .ok h ↔ Spells (trim line).toList h := by
  simp only [Spells, shape_iff, names_iff]
  cases hparts : readParts? (trim line).toList with
  | none => simp [ofLine, hparts]
  | some parts =>
      obtain ⟨version, letters⟩ := parts
      rw [ofLine_of_readParts? hparts, Except.map_eq_ok_iff]
      constructor
      · rintro ⟨v, hv, rfl⟩
        have hversion : version = v.text.toList := by
          rw [← Version.ofText_eq_ok_iff.1 hv, String.toList_ofList]
        exact ⟨letters, by rw [hversion], rfl⟩
      · rintro ⟨letters, hsome, hfragment⟩
        obtain ⟨rfl, rfl⟩ := Prod.mk.inj (Option.some.inj hsome)
        exact ⟨h.version, Version.ofText_eq_ok_iff.2 String.ofList_toList, by rw [← hfragment]⟩

/-! ## Writing -/

theorem toList_text (h : Header) : h.text.toList = "#%RAML".toList ++ ' ' ::
    (h.version.text.toList ++ match h.fragment with
      | none => []
      | some f => ' ' :: f.text.toList) := by
  obtain ⟨v, fragment⟩ := h
  cases fragment <;> simp [text]

/-- There is nothing to trim from a header as it is written. -/
theorem trim_text (h : Header) : trim h.text = h.text := by
  obtain ⟨front, last, hlast, hblank⟩ :
      ∃ front last, h.text.toList = front ++ [last] ∧ isBlank last = false := by
    obtain ⟨v, fragment⟩ := h
    cases fragment with
    | none =>
        cases v with
        | v08 => exact ⟨"#%RAML 0.".toList, '8', rfl, by decide⟩
        | v10 => exact ⟨"#%RAML 1.".toList, '0', rfl, by decide⟩
    | some f =>
        obtain ⟨hne, halpha⟩ := Fragment.letters_text f
        refine ⟨"#%RAML ".toList ++ (v.text.toList ++ ' ' :: f.text.toList.dropLast),
          f.text.toList.getLast hne, ?_, isBlank_of_isAlpha (halpha _ (List.getLast_mem hne))⟩
        simp [toList_text, List.dropLast_append_getLast]
  exact trim_eq_self (toList_text h) (by decide) hlast hblank

/-- A header without a kind that its version does not have is spelled as it is written. -/
theorem spells_text {h : Header} (hkind : h.version = .v08 → h.fragment = none) :
    Spells h.text.toList h := by
  rw [toList_text]
  obtain ⟨v, fragment⟩ := h
  cases fragment with
  | none =>
      refine ⟨[], ⟨by simp, ' ', [], by decide, by simp, by simp, by simp⟩, ?_⟩
      cases v with
      | v08 => exact .old []
      | v10 => exact .bare
  | some f =>
      cases v with
      | v08 => cases hkind rfl
      | v10 =>
          exact ⟨f.text.toList, ⟨(Fragment.letters_text f).2, ' ', [' '], by decide, by simp,
            by simp [isBlank], by simp⟩, .known f⟩

theorem ofLine_text {h : Header} (hkind : h.version = .v08 → h.fragment = none) :
    ofLine h.text = .ok h := by
  rw [ofLine_eq_ok_iff, trim_text]
  exact spells_text hkind

theorem Spells.kind {cs : List Char} {h : Header} (hs : Spells cs h) (hold : h.version = .v08) :
    h.fragment = none := by
  obtain ⟨letters, -, hnames⟩ := hs
  rw [names_iff.1 hnames, named, hold]
  rfl

/-- A line holds a header exactly if it spells one once trimmed, whatever the letters, and the
header as it is written is read as the same one. -/
theorem ofLine_exact (line : String) :
    (∀ h, ofLine line = .ok h ↔ Spells (trim line).toList h) ∧
    ((∃ h, ofLine line = .ok h) ↔ ∃ version letters, Shape (trim line).toList version letters) ∧
    ∀ h, ofLine line = .ok h → ofLine h.text = .ok h := by
  refine ⟨fun h => ofLine_eq_ok_iff, ?_, fun h hok => ofLine_text (ofLine_eq_ok_iff.1 hok).kind⟩
  constructor
  · rintro ⟨h, hok⟩
    obtain ⟨letters, hshape, -⟩ := ofLine_eq_ok_iff.1 hok
    exact ⟨h.version, letters, hshape⟩
  · rintro ⟨version, letters, hshape⟩
    have hspells : Spells (trim line).toList ⟨version, named version letters⟩ :=
      ⟨letters, hshape, names_iff.2 rfl⟩
    exact ⟨_, ofLine_eq_ok_iff.2 hspells⟩

/-- Blanks of any script around a header, and none in front of its letters. -/
theorem ofLine_exact_library :
    ofLine "\u3000#%RAML\u00a01.0Library\r" = .ok ⟨.v10, some .library⟩ ∧
      ofLine "#%RAML 1.0 Library" = .ok ⟨.v10, some .library⟩ := by
  have hread : ofLine "\u3000#%RAML\u00a01.0Library\r" = .ok ⟨.v10, some .library⟩ :=
    Except.eq_ok_of_toOption (by decide)
  have hwritten : text ⟨.v10, some .library⟩ = "#%RAML 1.0 Library" := by decide
  exact ⟨hread, hwritten ▸ (ofLine_exact _).2.2 _ hread⟩

end Header

end Raml
