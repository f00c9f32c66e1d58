import Raml.Proofs.Declaration.Rereading
import Raml.Proofs.Registry.NearestDeclarer

/-! # Kept declarations

A built type keeps its declaration with the type filled in and a mark of being
optional turned into a facet. What is kept is normal, so reading it once more
under the name that the type is reported under changes nothing but a mark that
is still there. Without one the type that is built from what was kept is the
type itself, at every depth: the declarations nested in it are kept as they
were written, marks and all.
-/

namespace Raml

namespace Outline

variable {name expression : String} {definition : Value} {d : Mapping} {o : Outline}

/-- A settled declaration is read alike under the name that its outline keeps. -/
theorem SettlesTo.again (h : SettlesTo name d expression o) : SettlesTo o.name d expression o := by
  cases h with
  | scalar hword => exact .scalar hword
  | object hword hread => exact .object hword hread
  | array hword => exact .array hword
  | xml hstart => exact .xml hstart
  | json hstart hread => exact .json hstart hread
  | plain hscalar hobject harray hs => exact .plain hscalar hobject harray hs

/-- An outline keeps a type, unless it is that of a schema that was decoded elsewhere. -/
theorem ofDefinition_type (h : ofDefinition name definition = .ok o)
    (hdefinition : ∀ schema, definition ≠ .embedded schema) :
    ∃ v, o.declaration.field? "type" = some v ∧ v.isNull = false := by
  rcases ofDefinition_cases h with
    ⟨schema, hd, -⟩ | ⟨d, -, ⟨schema, hs, rfl⟩ | ⟨expression, he, ho⟩⟩
  · exact absurd hd (hdefinition schema)
  · exact ⟨_, hs, rfl⟩
  · rw [(ofText_spec ho).1]
    exact ⟨_, settleOptional_type he, rfl⟩

/-! ## Without a mark -/

/-- What an outline keeps has that outline, if no mark is left. -/
theorem ofDefinition_kept (h : ofDefinition name definition = .ok o)
    (hdefinition : ∀ schema, definition ≠ .embedded schema)
    (hu : IsUnmarked o.name (o.declaration.field "type")) :
    ofDefinition o.name (.map o.declaration) = .ok o := by
  rcases ofDefinition_cases h with
    ⟨schema, hd, -⟩ | ⟨d, -, ⟨schema, hs, rfl⟩ | ⟨expression, he, ho⟩⟩
  · exact absurd hd (hdefinition schema)
  · exact ofDefinition_of_schema (normalize_map hs rfl) hs rootElementName
  · have hd := (ofText_spec ho).1
    have hkept : (settleOptional name d expression).2.1.field? "type" =
        some (.text (settleOptional name d expression).2.2) := settleOptional_type he
    rw [hd, Mapping.field_of_field? hkept] at hu
    rw [ofText_eq] at ho
    rw [hd, ofDefinition_of_text (normalize_map hkept rfl) hkept, ofText_eq,
      settleOptional_of_unmarked hu]
    exact ofSettled_eq_ok_iff.2 (ofSettled_eq_ok_iff.1 ho).again

/-! ## With a mark -/

theorem not_endsIn_of_removeSuffix {c : Char} {s : String} (h : s = Text.removeSuffix c s) :
    Text.endsIn c s = false := by
  rw [← Bool.not_eq_true]
  intro hend
  have hlength := congrArg List.length (Text.toList_of_endsIn hend)
  rw [← h, List.length_append, List.length_singleton] at hlength
  omega

theorem not_endsIn_of_unmark (h : expression = unmark expression) :
    Text.endsIn '?' (Text.trimEnd expression) = false := by
  rw [← Bool.not_eq_true]
  intro hend
  obtain ⟨blanks, -, hlist⟩ := toList_trimEnd_of_marked hend
  have hlength := congrArg List.length hlist
  rw [← h, List.length_append, List.length_cons] at hlength
  omega

/-- A text that is read as it stands, under the name that is kept, has no mark. -/
theorem isUnmarked_of_text (he : d.field? "type" = some (.text expression))
    (h : ofText name d expression = .ok o) (hname : o.name = name) (hd : o.declaration = d) :
    IsUnmarked name (.text expression) := by
  obtain ⟨hsettled, -, -, hwhere⟩ := ofText_spec h
  have hkept : (settleOptional name d expression).2.1.field? "type" =
      some (.text (settleOptional name d expression).2.2) := settleOptional_type he
  rw [← hsettled, hd, he] at hkept
  have hexpression := Value.text.inj (Option.some.inj hkept)
  rw [hname] at hwhere
  by_cases hopt : isOptional name expression = true
  · simp only [settleOptional, if_pos hopt] at hexpression hwhere
    have hunmarked : name = Text.removeSuffix '?' name ∨ name = rootElementName := by
      split at hwhere <;> exact hwhere
    refine ⟨hunmarked.elim not_endsIn_of_removeSuffix (· ▸ rootElementName_unmarked),
      fun e hexp hs => ?_⟩
    obtain rfl := Value.text.inj hexp
    rw [if_neg (by simp [hs])] at hexpression
    dsimp only at hexpression
    exact not_endsIn_of_unmark hexpression
  · rw [isOptional, Bool.not_eq_true, Bool.or_eq_false_iff] at hopt
    refine ⟨hopt.1, fun e hexp hs => ?_⟩
    obtain rfl := Value.text.inj hexp
    simpa [hs] using hopt.2

/-- What is kept whole, together with its name, has no mark. -/
theorem isUnmarked_of_kept {v : Value} (hv : d.field? "type" = some v) (hnull : v.isNull = false)
    (h : ofDefinition name (.map d) = .ok o) (hname : o.name = name) (hd : o.declaration = d) :
    IsUnmarked name v := by
  rcases ofDefinition_map_cases hv hnull h with ⟨schema, rfl, rfl⟩ | ⟨expression, rfl, ho⟩
  · exact ⟨hname ▸ rootElementName_unmarked, fun expression he => by cases he⟩
  · exact isUnmarked_of_text hv ho hname hd

end Outline

namespace DataType

variable {bound : Bool} {name : String} {definition : Value} {t : DataType}

/-- A type is built again from what it keeps if and only if no mark is left in that. -/
theorem build_again_iff (h : build bound name definition = .ok t)
    (hdefinition : ∀ schema, definition ≠ .embedded schema) :
    build bound t.name (.map t.declaration) = .ok t ↔ t.IsUnmarked := by
  obtain ⟨o, nested, ho, hnested, ht⟩ := build_eq_ok_iff.1 h
  have ha := assemble_eq_ok ht
  constructor
  · intro hagain
    obtain ⟨o', nested', ho', -, ht'⟩ := build_eq_ok_iff.1 hagain
    have ha' := assemble_eq_ok ht'
    obtain ⟨v, hv, hnull⟩ := Outline.ofDefinition_type ho hdefinition
    rw [← ha.declaration] at hv
    rw [IsUnmarked, Mapping.field_of_field? hv]
    exact Outline.isUnmarked_of_kept hv hnull ho' ha'.name.symm ha'.declaration.symm
  · intro hu
    rw [IsUnmarked, ha.name, ha.declaration] at hu
    rw [ha.name, ha.declaration]
    exact build_eq_ok_iff.2 ⟨o, nested, Outline.ofDefinition_kept ho hdefinition hu, hnested, ht⟩

/-- What a type keeps of its declaration is a recipe for that very type, at every depth. A name and a
type expression have one mark at most; marks with blanks between them are several. -/
theorem build_kept (h : build bound name definition = .ok t)
    (hdefinition : ∀ schema, definition ≠ .embedded schema)
    (hm : Outline.MarkedOnce name definition) :
    build bound t.name (.map t.declaration) = .ok t :=
  (build_again_iff h hdefinition).2 (build_isUnmarked h hm)

/-- The declaration of a pet: marks on the name of a property, on a type and on the whole. -/
def petFacets : Mapping :=
  [(.text "type", .text "object?"),
    (.text "properties", .map [(.text "name?", .null), (.text "tags", .text "string[]?"),
      (.text "data", .map [(.text "schema", .map [(.text "type", .text "object")])])])]

/-- What was an optional object with marks in it is one when it is built again. -/
theorem build_kept_pet :
    Outline.MarkedOnce "pet?" (.map petFacets) ∧ ∃ t, build true "pet?" (.map petFacets) = .ok t ∧
      t.kind = .object ∧ build true t.name (.map t.declaration) = .ok t := by
  have hm : Outline.MarkedOnce "pet?" (.map petFacets) := by
    refine ⟨by decide, fun d expression hd he _ => ?_⟩
    obtain rfl := Except.ok.inj hd
    obtain rfl := Value.text.inj (Option.some.inj he)
    decide
  have hbuild : build true "pet?" (.map petFacets) = .ok _ := Except.eq_ok_get rfl
  exact ⟨hm, _, hbuild, rfl, build_kept hbuild (fun schema hd => by cases hd) hm⟩

end DataType

end Raml
