import Mathlib.Data.List.Infix
import Raml.DataType.Outline
import Raml.Proofs.Text.Trimming
import Raml.Proofs.Value.Mapping

/-! # Type expressions

The kind of type that a type expression stands for is decided by its trimmed
text alone. Taking a mark of being optional off an expression keeps its kind,
unless it is the name of another type; so a type that is no reference is built
anew as one of the same kind, however many marks its expression carries.
-/

namespace Raml

def ScalarWord.kind : ScalarWord → Kind
  | .any => .any
  | .string => .string
  | .number => .number
  | .integer => .integer
  | .boolean => .boolean
  | .nil => .nil
  | .file => .file
  | .temporal kind => .temporal kind

def Shape.kind : Shape → Kind
  | .scalar word => word.kind
  | .object _ => .object
  | .array _ => .array
  | .union _ => .union
  | .reference _ => .reference
  | .json _ | .embedded _ => .json
  | .xml _ => .xml

theorem ScalarWord.kind_ne_object (word : ScalarWord) : word.kind ≠ .object := by
  cases word <;> simp [ScalarWord.kind]

namespace Outline

/-- The kind of type that a trimmed type expression stands for. -/
def wordKind (word : String) : Kind :=
  match ScalarWord.ofText? word with
  | some scalar => scalar.kind
  | none =>
      if word = "object" then .object
      else if word = "array" then .array
      else if Text.startsIn '<' word then .xml
      else if Text.startsIn '\x7b' word then .json
      else (ofExpression word).kind

/-- The kind of type that the `type` of a declaration stands for; a mapping there is a schema. -/
def typeKind : Value → Kind
  | .text expression => wordKind (Text.trim expression)
  | _ => .json

/-! ## Words that are not built in -/

/-- Whether a word has a character that no built-in word has where it stands. -/
def IsSpecial (word : String) : Prop :=
  '|' ∈ word.toList ∨ '[' ∈ word.toList ∨ word.toList.getLast? = some '?'

instance (word : String) : Decidable (IsSpecial word) := by
  unfold IsSpecial
  infer_instance

theorem IsSpecial.ne {word plain : String} (h : IsSpecial word) (hp : ¬ IsSpecial plain) :
    word ≠ plain := by
  rintro rfl
  exact hp h

theorem IsSpecial.ofText?_eq_none {word : String} (h : IsSpecial word) :
    ScalarWord.ofText? word = none := by
  unfold ScalarWord.ofText?
  split
  all_goals first
    | rfl
    | exact absurd h (by decide)

theorem ofExpression_kind (word : String) :
    (ofExpression word).kind =
      if '|' ∈ word.toList then .union
      else if ['[', ']'] <:+: word.toList then .array
      else .reference := by
  have hiff := Text.beforeLast?_isSome_iff ['[', ']'] (by simp) word.toList
  unfold ofExpression
  by_cases h : '|' ∈ word.toList
  · simp [h, Shape.kind]
  · cases hb : Text.beforeLast? ['[', ']'] word.toList with
    | none =>
        have hnot : ¬ ['[', ']'] <:+: word.toList := by simpa [hb] using hiff
        simp [h, hnot, Shape.kind]
    | some item =>
        have hin : ['[', ']'] <:+: word.toList := by simpa [hb] using hiff
        simp [h, hin, Shape.kind]

theorem ofExpression_kind_ne_object (word : String) : (ofExpression word).kind ≠ .object := by
  rw [ofExpression_kind]
  split
  · simp
  · split <;> simp

/-- A word that is not built in and no schema has the kind of its expression. -/
theorem IsSpecial.wordKind_eq {word : String} (h : IsSpecial word)
    (hxml : Text.startsIn '<' word = false) (hjson : Text.startsIn '\x7b' word = false) :
    wordKind word = (ofExpression word).kind := by
  have hobject : word ≠ "object" := h.ne (by decide)
  have harray : word ≠ "array" := h.ne (by decide)
  simp [wordKind, h.ofText?_eq_none, hobject, harray, hxml, hjson]

/-! ## Schemas -/

/-- A text is a schema by its first character that is not blank. -/
theorem isSchema_eq_false_iff (expression : String) :
    isSchema expression = false ↔
      Text.startsIn '<' (Text.trim expression) = false ∧
        Text.startsIn '\x7b' (Text.trim expression) = false := by
  have hhead := Text.head?_dropBlank expression.toList
  simp only [Text.startsIn, Text.head?_trim, ← hhead, isSchema]
  cases Text.dropBlank expression.toList <;> simp

/-! ## Marks of being optional -/

/-- The expression without a mark at its end. -/
def unmark (expression : String) : String :=
  Text.removeSuffix '?' (Text.trimEnd expression)

theorem endsIn_trimEnd_iff (expression : String) :
    Text.endsIn '?' (Text.trimEnd expression) = true ↔
      (Text.trim expression).toList.getLast? = some '?' := by
  simp [Text.endsIn, Text.getLast?_trim]

/-- What the expression is made of besides its mark and blanks. -/
theorem toList_trimEnd_of_marked {expression : String}
    (h : Text.endsIn '?' (Text.trimEnd expression) = true) :
    ∃ blanks, (∀ c ∈ blanks, Text.isBlank c = true) ∧
      expression.toList = (unmark expression).toList ++ '?' :: blanks := by
  obtain ⟨blanks, hb, hs⟩ := Text.exists_dropBlankEnd expression.toList
  refine ⟨blanks, hb, ?_⟩
  have hend := Text.toList_of_endsIn h
  rw [Text.trimEnd, String.toList_ofList] at hend
  rw [hs, hend]
  simp [unmark, Text.trimEnd]

theorem isSchema_unmark {expression : String} (h : isSchema expression = false) :
    isSchema (unmark expression) = false := by
  by_cases hm : Text.endsIn '?' (Text.trimEnd expression) = true
  · obtain ⟨blanks, _, hs⟩ := toList_trimEnd_of_marked hm
    rw [isSchema_eq_false_iff] at h ⊢
    simp only [Text.startsIn, Text.head?_trim, hs, List.find?_append] at h ⊢
    cases hfind : (unmark expression).toList.find? (!Text.isBlank ·) with
    | none => simp
    | some c => simpa [hfind] using h
  · rw [Bool.not_eq_true] at hm
    rw [isSchema_eq_false_iff] at h ⊢
    rwa [unmark, Text.removeSuffix_of_not_endsIn hm, Text.trim_trimEnd]

/-- Taking a mark off keeps the kind of an expression that is no name. -/
theorem typeKind_unmark {expression : String} (hs : isSchema expression = false)
    (hk : typeKind (.text expression) ≠ .reference) :
    typeKind (.text (unmark expression)) = typeKind (.text expression) := by
  by_cases hm : Text.endsIn '?' (Text.trimEnd expression) = true
  · obtain ⟨blanks, hb, hlist⟩ := toList_trimEnd_of_marked hm
    obtain ⟨hxml, hjson⟩ := (isSchema_eq_false_iff expression).1 hs
    obtain ⟨hxml', hjson'⟩ := (isSchema_eq_false_iff _).1 (isSchema_unmark hs)
    have hspecial : IsSpecial (Text.trim expression) := .inr (.inr ((endsIn_trimEnd_iff _).1 hm))
    have hbar : '|' ∈ expression.toList ↔ '|' ∈ (unmark expression).toList := by
      have hnot : '|' ∉ blanks := fun h => absurd (hb _ h) (by decide)
      simp [hlist, hnot]
    have hbrackets : ['[', ']'] <:+: expression.toList ↔
        ['[', ']'] <:+: (unmark expression).toList := by
      rw [hlist]
      constructor
      · refine Text.infix_of_infix_append (c := ']') rfl ?_
        simp only [List.mem_cons, not_or]
        exact ⟨by decide, fun h => absurd (hb _ h) (by decide)⟩
      · exact fun h => h.trans (List.prefix_append _ _).isInfix
    have hbarTrim (s : String) := Text.mem_trim_iff (s := s) (c := '|') (by decide)
    have hbracketsTrim (s : String) :=
      Text.infix_trim_iff ['[', ']'] rfl rfl (by decide) (by decide) s
    simp only [typeKind, hspecial.wordKind_eq hxml hjson, ofExpression_kind, hbarTrim,
      hbracketsTrim] at hk ⊢
    -- an expression that is no name keeps what makes it a union or an array
    have hspecial' : IsSpecial (Text.trim (unmark expression)) := by
      by_cases h : '|' ∈ expression.toList
      · exact .inl ((hbarTrim _).2 (hbar.1 h))
      · by_cases h' : ['[', ']'] <:+: expression.toList
        · exact .inr (.inl (((hbracketsTrim _).2 (hbrackets.1 h')).subset (by simp)))
        · simp [h, h'] at hk
    rw [hspecial'.wordKind_eq hxml' hjson', ofExpression_kind]
    simp only [hbarTrim, hbracketsTrim, hbar, hbrackets]
  · rw [Bool.not_eq_true] at hm
    rw [unmark, Text.removeSuffix_of_not_endsIn hm]
    simp only [typeKind, Text.trim_trimEnd]

end Outline

end Raml
