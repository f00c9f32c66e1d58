import Raml.Proofs.DataType.Twins
import Raml.Proofs.Declaration.WrittenTypes
import Raml.Proofs.General.Ensuring
import Raml.Proofs.Parameter.Languages
import Raml.Proofs.Validation.Acceptance
import Raml.Proofs.Validation.Enumerations

/-! # Parameters of texts and their types

A declaration of a text, a date or a time can be read as a parameter and as a
type. For a text the parameter accepts what the type does, but if neither a
pattern nor an enumeration is declared only texts that can be a segment of a
URI. For a date or a time the parameter asks for such a segment and not for the
format.
-/

namespace Raml

open Pattern

/-! ## Declared types -/

namespace DataType

def textNames : Table String ScalarWord :=
  [("string", .string), ("date-only", .temporal .dateOnly), ("time-only", .temporal .timeOnly),
    ("datetime-only", .temporal .dateTimeOnly), ("datetime", .temporal .dateTime)]

theorem build_scalarName {bound : Bool} {name type : String} {d : Mapping} {t : DataType}
    {word : ScalarWord} (hname : (type, word) ∈ scalarNames)
    (htype : d.field? "type" = some (.text type)) (h : build bound name (.map d) = .ok t) :
    ∃ c s, t = .scalar c s ∧ readScalar d word = .ok s ∧
      Field.readOptional d "enum" "enum" Field.items? = .ok c.enum := by
  have hnames : ∀ e ∈ scalarNames, Text.trim e.1 = e.1 ∧
      Text.endsIn '?' (Text.trimEnd e.1) = false ∧ ScalarWord.ofText? e.1 = some e.2 := by decide
  obtain ⟨htrim, hmark, hword⟩ := hnames _ hname
  dsimp only at htrim hmark hword
  obtain ⟨o, nested, ho, -, hassemble⟩ := build_eq_ok_iff.1 h
  have hsettled := Outline.settleOptional_sameText_of_unmarked name d fun _ => hmark
  rw [Outline.ofDefinition_of_text (Outline.normalize_map htype rfl) htype, Outline.ofText_eq] at ho
  have hscalar : ScalarWord.ofText? (Text.trim (Outline.settleOptional name d type).2.2) =
      some word := by
    rw [← hsettled.trim, htrim, hword]
  obtain rfl := Except.ok.inj (ho.symm.trans (Outline.ofSettled_eq_ok_iff.2 (.scalar hscalar)))
  have hsame : Declaration.SameConstraints d (Outline.settleOptional name d type).2.1 := by
    intro s hs
    refine (Outline.settleOptional_field? d name type ?_ ?_).symm
    · exact fun heq => hs (heq ▸ by decide)
    · exact fun heq => hs (heq ▸ by decide)
  cases assemble_eq_ok_iff.1 hassemble with
  | scalar hc hs =>
      refine ⟨_, _, rfl, (hsame.readScalar word).trans hs, ?_⟩
      exact (hsame.readOptional (by decide) (by decide) _).trans (Common.read_fields hc).2

theorem readText_fields {d : Mapping} {f : TextFacets} (h : TextFacets.read d = .ok f) :
    Field.readOptional d "pattern" "pattern" Field.text? = .ok f.pattern ∧
      Field.readOptional d "minLength" "min_length" Field.int? = .ok f.minLength ∧
      Field.readOptional d "maxLength" "max_length" Field.int? = .ok f.maxLength := by
  simp only [TextFacets.read, Checked.seq_eq_ok_iff, Checked.map_eq_ok_iff] at h
  obtain ⟨_, _, ⟨_, _, ⟨_, hpattern, rfl⟩, hleast, rfl⟩, hmost, rfl⟩ := h
  exact ⟨hpattern, hleast, hmost⟩

theorem validate_scalar (r : Registry) (c : Common) (s : Scalar) (v : Value) :
    (DataType.scalar c s).validate r v = Validation.checkScalar c s v := by
  obtain ⟨fuel, hfuel⟩ : ∃ fuel, Validation.depthBound r (.scalar c s) v = fuel + 1 :=
    ⟨Validation.depthBound r (.scalar c s) v - 1, by
      have hpos : 0 < Validation.depthBound r (.scalar c s) v := Nat.mul_pos (by omega) (by omega)
      omega⟩
  rw [validate, hfuel]
  rfl

end DataType

/-! ## Declared parameters -/

namespace Parameter

structure IsRead (type : String) (d : Mapping) (p : Parameter) : Prop where
  type : p.type = type
  enum : Field.readOptional d "enum" "enum" Field.items? = .ok p.enum
  pattern : Field.readOptional d "pattern" "pattern" Field.text? = .ok p.pattern
  minLength : Field.readOptional d "minLength" "min_length" Field.int? = .ok p.minLength
  maxLength : Field.readOptional d "maxLength" "max_length" Field.int? = .ok p.maxLength
  valueType : Field.readOptional d "value_type" "value_type" untyped? = .ok p.valueType

theorem read_isRead (key : Value) (type : String) (d : Mapping) :
    (read key type d none).Ensures (IsRead type d) := by
  -- one step for each field, the last one first; the fields that are skipped have no say here
  refine .seq (Q := fun a => Field.readOptional d "value_type" "value_type" untyped? = .ok a)
    (fun _ h => h) ?_
  iterate 6 refine .skip ?_
  refine .seq (Q := fun a => Field.readOptional d "maxLength" "max_length" Field.int? = .ok a)
    (fun _ h => h) ?_
  refine .seq (Q := fun a => Field.readOptional d "minLength" "min_length" Field.int? = .ok a)
    (fun _ h => h) ?_
  refine .seq (Q := fun a => Field.readOptional d "pattern" "pattern" Field.text? = .ok a)
    (fun _ h => h) ?_
  refine .seq (Q := fun a => Field.readOptional d "enum" "enum" Field.items? = .ok a)
    (fun _ h => h) ?_
  iterate 2 refine .skip ?_
  refine .seq (Q := fun a => a = type) (fun _ h => (Checked.ok.inj h).symm) ?_
  refine .map _ fun _ _ htype _ _ _ henum _ hpattern _ hleast _ hmost _ _ _ _ _ _ _ hvalue => ?_
  exact ⟨htype, henum, hpattern, hleast, hmost, hvalue⟩

theorem IsRead.congr {type : String} {d d' : Mapping} {p : Parameter} (h : IsRead type d p)
    (hsame : Declaration.SameConstraints d d') : IsRead type d' p where
  type := h.type
  enum := (hsame.readOptional (by decide) (by decide) _).symm.trans h.enum
  pattern := (hsame.readOptional (by decide) (by decide) _).symm.trans h.pattern
  minLength := (hsame.readOptional (by decide) (by decide) _).symm.trans h.minLength
  maxLength := (hsame.readOptional (by decide) (by decide) _).symm.trans h.maxLength
  valueType := (hsame.readOptional (by decide) (by decide) _).symm.trans h.valueType

/-- A parameter of a type whose values it checks itself has what its declaration says. -/
theorem ofDefinition_isRead (registry : Option Registry) (required : Bool) (key : Value)
    {type : String} {d : Mapping} (htype : d.field? "type" = some (.text type))
    (hown : ownTypes.contains type = true) (hmark : Text.endsIn '?' type = false) :
    (ofDefinition registry required key (.map d)).Ensures (IsRead type d) := by
  have hexpression : expression key d = .ok type := by
    have hne : type ≠ "" := by
      rintro rfl
      exact absurd hown (by decide)
    rw [expression, Mapping.field_of_field? htype]
    simp [Value.isEmpty, hne]
  refine .bind (Q := fun d' => d' = d) (fun _ h => (Except.ok.inj h).symm) fun d' hd => ?_
  subst hd
  refine .bind (Q := fun written => written = type) (fun written h => ?_) fun written hw => ?_
  · exact Except.ok.inj (h.symm.trans hexpression)
  subst hw
  simp only [hmark, hown, if_true, Bool.false_eq_true, if_false]
  refine .bind (Q := fun valueType => valueType = none) (.pure rfl) fun valueType hv => ?_
  subst hv
  refine .ofChecked fun p hp => (read_isRead key written _ p hp).congr ?_
  intro s hs
  have hrequired : "required" ≠ s := fun heq => hs (heq ▸ by decide)
  split
  · rfl
  · rw [Mapping.field?_setField, if_neg hrequired]

/-! ## The pattern of a text -/

/-- A pattern or an enumeration is declared; an empty pattern is as good as none. -/
def HasOwnPattern (p : Parameter) : Prop :=
  ¬ p.DeclaresNoPattern ∨ p.enum ≠ none

theorem occursIn_empty (s : String) : OccursIn "" s := by
  have hmatches : ∀ start : Cursor, Node.empty.matchesFrom start = true := fun _ => rfl
  refine ⟨.empty, rfl, ?_⟩
  rw [Node.search]
  cases s.toList with
  | nil => exact hmatches _
  | cons c rest => rw [Node.searchFrom, hmatches, Bool.true_or]

theorem occursIn_memberPattern {members : List Value} {s : String} (h : .text s ∈ members) :
    OccursIn (memberPattern members) s := by
  obtain ⟨body, heq, hbody⟩ := denotes_memberPattern (List.ne_nil_of_mem h)
  rw [heq, hbody.occursIn]
  exact .inl ⟨_, h, rfl⟩

variable {p : Parameter} {s : String}

/-- The pattern of a text that the enumeration has is the declared one, and that of a segment if
nothing is declared. -/
theorem occursIn_matchPattern_iff (htype : typePattern? p.type = none)
    (hlists : ListsText p.enum s) : OccursIn p.matchPattern s ↔
      (∀ source, p.pattern = some source → OccursIn source s) ∧
        (p.HasOwnPattern ∨ OccursIn p.segmentPattern s) := by
  by_cases hpattern : p.DeclaresNoPattern
  · have hempty : ∀ source, p.pattern = some source → OccursIn source s := by
      intro source hsource
      rw [hpattern source hsource]
      exact occursIn_empty s
    cases henum : p.enum with
    | none =>
        have hnone : ¬ p.HasOwnPattern := by simp [HasOwnPattern, hpattern, henum]
        rw [matchPattern_of_listsNothing hpattern (.of_none henum), htype, Option.getD_none,
          or_iff_right hnone, and_iff_right hempty]
    | some members =>
        have hmem := hlists members henum
        rw [matchPattern_of_enum hpattern henum (List.ne_nil_of_mem hmem)]
        have hsays : p.HasOwnPattern := .inr (by simp [henum])
        exact iff_of_true (occursIn_memberPattern hmem) ⟨hempty, .inl hsays⟩
  · obtain ⟨source, hsource, hne⟩ : ∃ source, p.pattern = some source ∧ source ≠ "" := by
      simpa [DeclaresNoPattern] using hpattern
    rw [matchPattern_of_pattern hsource hne]
    constructor
    · intro h
      refine ⟨fun source' hsource' => ?_, .inl (.inl hpattern)⟩
      rw [hsource] at hsource'
      exact Option.some.inj hsource' ▸ h
    · exact fun h => h.1 source hsource

theorem occursIn_segmentPattern (hleast : IsRounds p.minLength) (hmost : IsRounds p.maxLength)
    (h : WithinBounds p.minLength p.maxLength s.length) : OccursIn p.segmentPattern s ↔
      '/' ∉ s.toList ∧ (p.minLength = none → p.maxLength = none → s ≠ "") := by
  unfold segmentPattern
  split
  · next hbounds =>
      rw [occursIn_lengthPattern hleast hmost h]
      refine (and_iff_left fun hnone hnone' => ?_).symm
      simp [hnone, hnone'] at hbounds
  · next hbounds =>
      have hnone : p.minLength = none ∧ p.maxLength = none := by simpa using hbounds
      rw [occursIn_default, and_comm]
      simp [hnone.1, hnone.2]

end Parameter

/-! ## Texts that a type accepts -/

namespace Validation

variable {c : Common} {s : String}

theorem checkText_eq_ok_iff {f : TextFacets} : checkText c f (.text s) = .ok () ↔
    ListsText c.enum s ∧ WithinBounds f.minLength f.maxLength s.length ∧
      ∀ source, f.pattern = some source → OccursIn source s := by
  rw [checkText, Except.then_eq_ok_iff, Except.then_eq_ok_iff, Except.then_eq_ok_iff,
    requireMember, requireMember_text_eq_ok_iff, requirePattern_eq_ok_iff]
  simp only [requireBound_eq_ok_iff, decide_eq_true_eq, finds_iff_occursIn]
  constructor
  · intro h
    exact ⟨h.2.2.2, ⟨h.1, h.2.1⟩, h.2.2.1⟩
  · intro h
    exact ⟨h.2.1.least, h.2.1.most, h.2.2, h.1⟩

theorem checkTemporal_eq_ok_iff {kind : TemporalKind} {format : Option String} :
    checkTemporal c kind format (.text s) = .ok () ↔
      ListsText c.enum s ∧ (formatOf kind format).accepts s = true := by
  rw [checkTemporal, Except.then_eq_ok_iff, requireMember, requireMember_text_eq_ok_iff,
    require_eq_ok_iff, and_comm]

end Validation

/-! ## Parameters and types -/

namespace Parameter

theorem validate_text_iff {p : Parameter} (hvalue : p.valueType = none)
    (htype : typePattern? p.type = none) (r : Registry) (s : String) :
    p.validate r (.text s) = .ok () ↔ ListsText p.enum s ∧
      WithinBounds p.minLength p.maxLength s.length ∧
      (∀ source, p.pattern = some source → OccursIn source s) ∧
      (p.HasOwnPattern ∨ OccursIn p.segmentPattern s) := by
  rw [validate_text_eq_ok_iff hvalue]
  refine and_congr_right fun hlists => and_congr_right fun _ => ?_
  exact occursIn_matchPattern_iff htype hlists

/-- From one declaration, a parameter of texts accepts what the type does, if only segments of URIs
where neither a pattern nor an enumeration is declared. A parameter of dates or times keeps the
bounds and the pattern as well and, unlike the type, does not ask for the format. -/
theorem accepts_text_unless_segment {registry : Option Registry} {required bound : Bool}
    {key type : String} {d : Mapping} {word : ScalarWord} {p : Parameter} {t : DataType}
    (hname : (type, word) ∈ DataType.textNames) (htype : d.field? "type" = some (.text type))
    (hvalue : d.field? "value_type" = none)
    (hp : (ofDefinition registry required (.text key) (.map d)).outcome = .ok p)
    (ht : DataType.build bound key (.map d) = .ok t) (r : Registry) (s : String) :
    IsRead type d p ∧
    (p.validate r (.text s) = .ok () ↔ ListsText p.enum s ∧
      WithinBounds p.minLength p.maxLength s.length ∧
      (∀ source, p.pattern = some source → OccursIn source s) ∧
      (p.HasOwnPattern ∨ OccursIn p.segmentPattern s)) ∧
    (word = .string → (p.validate r (.text s) = .ok () ↔
      t.validate r (.text s) = .ok () ∧ (p.HasOwnPattern ∨ OccursIn p.segmentPattern s))) ∧
    (∀ kind, word = .temporal kind → ∃ format, readFormat d = .ok format ∧
      (t.validate r (.text s) = .ok () ↔
        ListsText p.enum s ∧ (Validation.formatOf kind format).accepts s = true)) ∧
    (IsRounds p.minLength → IsRounds p.maxLength →
      WithinBounds p.minLength p.maxLength s.length → (OccursIn p.segmentPattern s ↔
        '/' ∉ s.toList ∧ (p.minLength = none → p.maxLength = none → s ≠ ""))) := by
  have hnames : ∀ e ∈ DataType.textNames, e ∈ DataType.scalarNames ∧
      ownTypes.contains e.1 = true ∧ Text.endsIn '?' e.1 = false ∧ typePattern? e.1 = none := by
    decide
  obtain ⟨hscalar, hown, hmark, hplain⟩ := hnames _ hname
  have hread := ofDefinition_isRead registry required (.text key) htype hown hmark p hp
  have hitself : p.valueType = none :=
    (Checked.ok.inj ((Field.readOptional_absent hvalue hvalue).symm.trans hread.valueType)).symm
  have haccepted := validate_text_iff hitself (hread.type ▸ hplain) r s
  obtain ⟨c, scalar, rfl, hfacets, henum⟩ := DataType.build_scalarName hscalar htype ht
  have hsame : c.enum = p.enum := Checked.ok.inj (henum.symm.trans hread.enum)
  rw [DataType.validate_scalar]
  refine ⟨hread, haccepted, fun hword => ?_, fun kind hword => ?_, occursIn_segmentPattern⟩
  · subst hword
    obtain ⟨f, hf, rfl⟩ := (Checked.map_eq_ok_iff _ _ _).1 hfacets
    obtain ⟨hpattern, hleast, hmost⟩ := DataType.readText_fields hf
    rw [haccepted, Validation.checkScalar, Validation.checkText_eq_ok_iff, hsame,
      Checked.ok.inj (hpattern.symm.trans hread.pattern),
      Checked.ok.inj (hleast.symm.trans hread.minLength),
      Checked.ok.inj (hmost.symm.trans hread.maxLength), and_assoc, and_assoc]
  · subst hword
    obtain ⟨format, hformat, rfl⟩ := (Checked.map_eq_ok_iff _ _ _).1 hfacets
    refine ⟨format, hformat, ?_⟩
    rw [← hsame]
    exact Validation.checkTemporal_eq_ok_iff

def mediaType : Mapping :=
  [(.text "type", .text "string"), (.text "pattern", .text "^[a-z]+/[a-z]+$"),
    (.text "maxLength", .int 16)]

/-- Where a pattern is declared, a header with a slash is accepted as its type accepts it. -/
theorem accepts_text_unless_segment_mediaType :
    ∃ p t, (ofDefinition none false (.text "Accept") (.map mediaType)).outcome = .ok p ∧
      DataType.build false "Accept" (.map mediaType) = .ok t ∧
      (p.validate [] (.text "text/xml") = .ok () ↔ t.validate [] (.text "text/xml") = .ok ()) := by
  have hread : (ofDefinition none false (.text "Accept") (.map mediaType)).outcome.toOption.map
      Parameter.pattern = some (some "^[a-z]+/[a-z]+$") := by
    decide
  have hbuilt : (DataType.build false "Accept" (.map mediaType)).toOption.isSome = true := by
    decide
  obtain ⟨p, hp, hpattern⟩ := Option.map_eq_some_iff.1 hread
  obtain ⟨t, ht⟩ := Option.isSome_iff_exists.1 hbuilt
  have hown : p.HasOwnPattern := .inl fun h => absurd (h _ hpattern) (by decide)
  have hname : ("string", ScalarWord.string) ∈ DataType.textNames := by decide
  have hsaid := accepts_text_unless_segment hname rfl rfl (Except.eq_ok_of_toOption hp)
    (Except.eq_ok_of_toOption ht) [] "text/xml"
  refine ⟨p, t, Except.eq_ok_of_toOption hp, Except.eq_ok_of_toOption ht, ?_⟩
  rw [hsaid.2.2.1 rfl]
  exact and_iff_left (.inl hown)

/-- A text of which no more is said. -/
def plainText : Mapping :=
  [(.text "type", .text "string")]

/-- A text with a slash is one that its type accepts and its parameter does not. -/
theorem not_always_accepts_as_type :
    ¬ ∀ (registry : Option Registry) (required bound : Bool) (key type : String) (d : Mapping)
      (word : ScalarWord) (p : Parameter) (t : DataType), (type, word) ∈ DataType.textNames →
        d.field? "type" = some (.text type) → d.field? "value_type" = none →
        (ofDefinition registry required (.text key) (.map d)).outcome = .ok p →
        DataType.build bound key (.map d) = .ok t → ∀ (r : Registry) (s : String),
          (p.validate r (.text s) = .ok () ↔ t.validate r (.text s) = .ok ()) := by
  intro hclaim
  have hrejected : (ofDefinition none false (.text "Accept") (.map plainText)).outcome.toOption.map
      (fun p => (p.validate [] (.text "application/json")).toOption) = some none := by
    decide +kernel
  have haccepted : (DataType.build false "Accept" (.map plainText)).toOption.map
      (fun t => (t.validate [] (.text "application/json")).toOption) = some (some ()) := by
    decide
  obtain ⟨p, hp, hrejected⟩ := Option.map_eq_some_iff.1 hrejected
  obtain ⟨t, ht, haccepted⟩ := Option.map_eq_some_iff.1 haccepted
  have hboth := hclaim none false false "Accept" "string" plainText .string p t (by decide) rfl rfl
    (Except.eq_ok_of_toOption hp) (Except.eq_ok_of_toOption ht) [] "application/json"
  rw [hboth.2 (Except.eq_ok_of_toOption haccepted)] at hrejected
  cases hrejected

end Parameter

end Raml
