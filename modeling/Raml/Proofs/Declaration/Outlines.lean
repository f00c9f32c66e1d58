import Raml.Proofs.Declaration.Expression
import Raml.Proofs.Declaration.Merging

/-! # Outlines of declarations

What the outline of a declaration keeps of it. Normalising and taking off the
marks of being optional touch the type, `schema` and `required` alone. The kind
of an outline is the kind of the type that it keeps, so a declaration that is
read again gives an outline of the same kind; and without a mark it is kept
whole.
-/

namespace Raml

namespace Declaration

/-- A declaration that has a type is normal already. -/
theorem withType_of_type {d : Mapping} {v : Value} (h : d.field? "type" = some v)
    (hv : v.isNull = false) : withType d = d := by
  simp [withType, Mapping.field_of_field? h, hv]

theorem field?_withType (d : Mapping) {s : String} (htype : "type" ≠ s) (hschema : "schema" ≠ s) :
    (withType d).field? s = d.field? s := by
  unfold withType
  split
  · dsimp only
    split
    · simp [htype]
    · simp [htype, hschema]
  · rfl

theorem withType_type (d : Mapping) :
    ∃ v, (withType d).field? "type" = some v ∧ v.isNull = false := by
  unfold withType
  split
  · dsimp only
    split
    · exact ⟨impliedType d, by simp, rfl⟩
    · next h => exact ⟨d.field "schema", by simp, by simpa using h⟩
  · next h =>
      cases hf : d.field? "type" with
      | none => simp [Mapping.field, hf, Value.isNull] at h
      | some v => exact ⟨v, rfl, by simpa [Mapping.field, hf] using h⟩

theorem withType_source {d : Mapping} {v : Value} (h : (withType d).field? "type" = some v) :
    (v = .text "object" ∨ v = .text "string") ∨ ∃ s, d.field? s = some v := by
  unfold withType at h
  split at h
  · dsimp only at h
    split at h
    · rw [Mapping.field?_setField, if_pos rfl] at h
      obtain rfl := Option.some.inj h
      unfold impliedType
      split <;> simp
    · next hs =>
        rw [Mapping.field?_setField, if_pos rfl] at h
        obtain rfl := Option.some.inj h
        refine .inr ⟨"schema", ?_⟩
        cases hf : d.field? "schema" with
        | none => simp [Mapping.field, hf, Value.isNull] at hs
        | some schema => simp [Mapping.field, hf]
  · exact .inr ⟨"type", h⟩

theorem normalize_type {definition : Value} {d : Mapping} (h : normalize definition = .ok d) :
    ∃ v, d.field? "type" = some v ∧ v.isNull = false := by
  cases definition with
  | text e =>
      obtain rfl := Except.ok.inj h
      exact ⟨.text e, rfl, rfl⟩
  | null =>
      obtain rfl := Except.ok.inj h
      exact ⟨.text "string", rfl, rfl⟩
  | map m =>
      obtain rfl := Except.ok.inj h
      exact withType_type m
  | _ => simp [normalize] at h

end Declaration

namespace Outline

/-! ## Taking marks off -/

@[simp] theorem field?_withDefault (d : Mapping) (key : String) (v : Value) {s : String}
    (h : key ≠ s) : (withDefault d key v).field? s = d.field? s := by
  unfold withDefault
  split
  · rfl
  · simp [h]

theorem settleOptional_type {d : Mapping} {name expression : String}
    (h : d.field? "type" = some (.text expression)) :
    (settleOptional name d expression).2.1.field? "type" =
      some (.text (settleOptional name d expression).2.2) := by
  unfold settleOptional
  split
  · dsimp only
    split <;> simp [h]
  · exact h

theorem settleOptional_field? (d : Mapping) (name expression : String) {s : String}
    (htype : "type" ≠ s) (hrequired : "required" ≠ s) :
    (settleOptional name d expression).2.1.field? s = d.field? s := by
  unfold settleOptional
  split
  · dsimp only
    split <;> simp [htype, hrequired]
  · rfl

theorem settleOptional_kind (d : Mapping) (name : String) {expression : String}
    (h : typeKind (.text expression) ≠ .reference) :
    typeKind (.text (settleOptional name d expression).2.2) = typeKind (.text expression) := by
  unfold settleOptional
  split
  · dsimp only
    split
    · rfl
    · next hs =>
        dsimp only
        exact typeKind_unmark (by simpa using hs) h
  · rfl

/-- Neither the name nor a type expression has a mark at its end. -/
def IsUnmarked (name : String) (type : Value) : Prop :=
  Text.endsIn '?' name = false ∧
    ∀ expression, type = .text expression → isSchema expression = false →
      Text.endsIn '?' (Text.trimEnd expression) = false

theorem settleOptional_of_unmarked {name expression : String}
    (h : IsUnmarked name (.text expression)) (d : Mapping) :
    settleOptional name d expression = (name, d, expression) := by
  have hopt : isOptional name expression = false := by
    cases hs : isSchema expression with
    | true => simp [isOptional, h.1, hs]
    | false => simp [isOptional, h.1, h.2 expression rfl hs]
  simp [settleOptional, hopt]

/-- A name and a type expression with one mark at most are left without any. -/
theorem settleOptional_isUnmarked {name expression : String} (d : Mapping)
    (hname : Text.endsIn '?' (Text.removeSuffix '?' name) = false)
    (hexpression : isSchema expression = false →
      Text.endsIn '?' (Text.trimEnd (unmark expression)) = false) :
    IsUnmarked (settleOptional name d expression).1
      (.text (settleOptional name d expression).2.2) := by
  unfold settleOptional
  split
  · dsimp only
    split
    · next hs =>
        refine ⟨hname, fun e he hs' => ?_⟩
        cases he
        rw [hs] at hs'
        cases hs'
    · next hs =>
        dsimp only
        refine ⟨hname, fun e he _ => ?_⟩
        obtain rfl := Value.text.inj he
        exact hexpression (by simpa using hs)
  · next hopt =>
      rw [isOptional, Bool.not_eq_true, Bool.or_eq_false_iff] at hopt
      refine ⟨hopt.1, fun e he hs => ?_⟩
      cases he
      simpa [hs] using hopt.2

theorem withDefault_isDict {d : Mapping} (h : Mapping.IsDict d) (key : String) (v : Value) :
    Mapping.IsDict (withDefault d key v) := by
  unfold withDefault
  split
  · exact h
  · exact h.setField key v

theorem settleOptional_isDict {d : Mapping} (h : Mapping.IsDict d) (name expression : String) :
    Mapping.IsDict (settleOptional name d expression).2.1 := by
  have hd := withDefault_isDict h "required" (.bool false)
  unfold settleOptional
  split
  · dsimp only
    split
    · exact hd
    · exact hd.setField _ _
  · exact h

/-! ## Reading a type text -/

theorem ofExpression_wordKind {word : String} (hscalar : ScalarWord.ofText? word = none)
    (hobject : word ≠ "object") (harray : word ≠ "array")
    (hxml : ¬ Text.startsIn '<' word = true) (hjson : ¬ Text.startsIn '\x7b' word = true) :
    wordKind word = (ofExpression word).kind := by
  simp [wordKind, hscalar, hobject, harray, hxml, hjson]

/-- The outline of a declaration whose type is a text: it keeps the declaration without its marks,
and its kind is that of the type kept. -/
theorem ofText_spec {name expression : String} {d : Mapping} {o : Outline}
    (h : ofText name d expression = .ok o) :
    o.declaration = (settleOptional name d expression).2.1 ∧
      o.shape.kind = typeKind (.text (settleOptional name d expression).2.2) ∧
      ((o.shape.nested = [] ∧ o.shape.kind ≠ .object) ∨
        (∃ properties, o.shape = .object properties ∧
          readProperties o.name o.declaration = .ok properties) ∨
        (∃ name', o.shape = .array (readItems name' o.declaration)) ∨
        o.shape = ofExpression (Text.trim (settleOptional name d expression).2.2)) ∧
      (o.name = (settleOptional name d expression).1 ∨ o.name = rootElementName) := by
  unfold ofText at h
  generalize settleOptional name d expression = settled at h ⊢
  obtain ⟨name', d', expression'⟩ := settled
  dsimp only at h ⊢
  simp only [typeKind]
  generalize Text.trim expression' = word at h ⊢
  -- the names of kinds first, then what begins like a schema; the rest is an expression
  split at h
  · next scalar hs =>
      obtain rfl := Except.ok.inj h
      exact ⟨rfl, by simp [Shape.kind, wordKind, hs], .inl ⟨rfl, scalar.kind_ne_object⟩, .inl rfl⟩
  · next hs =>
      by_cases hobject : word = "object"
      · subst hobject
        simp only [if_true] at h
        cases hp : readProperties name' d' with
        | error e => simp [hp, bind, Except.bind] at h
        | ok properties =>
            simp only [hp, bind, Except.bind] at h
            obtain rfl := Except.ok.inj h
            exact ⟨rfl, by simp [Shape.kind, wordKind, hs], .inr (.inl ⟨properties, rfl, hp⟩),
              .inl rfl⟩
      · by_cases harray : word = "array"
        · subst harray
          simp only [hobject, if_false, if_true] at h
          obtain rfl := Except.ok.inj h
          exact ⟨rfl, by simp [Shape.kind, wordKind, hs], .inr (.inr (.inl ⟨name', rfl⟩)),
            .inl rfl⟩
        · simp only [hobject, harray, if_false] at h
          by_cases hxml : Text.startsIn '<' word = true
          · simp only [hxml, if_true] at h
            obtain rfl := Except.ok.inj h
            exact ⟨rfl, by simp [Shape.kind, wordKind, hs, hobject, harray, hxml],
              .inl ⟨rfl, by simp [Shape.kind]⟩, .inr rfl⟩
          · by_cases hjson : Text.startsIn '\x7b' word = true
            · simp only [hxml, hjson, if_true, Bool.false_eq_true, if_false] at h
              cases hr : readSchema expression' with
              | error e => simp [hr, bind, Except.bind] at h
              | ok schema =>
                  simp only [hr, bind, Except.bind] at h
                  obtain rfl := Except.ok.inj h
                  exact ⟨rfl, by simp [Shape.kind, wordKind, hs, hobject, harray, hxml, hjson],
                    .inl ⟨rfl, by simp [Shape.kind]⟩, .inr rfl⟩
            · simp only [hxml, hjson, Bool.false_eq_true, if_false] at h
              obtain rfl := Except.ok.inj h
              exact ⟨rfl, (ofExpression_wordKind hs hobject harray hxml hjson).symm,
                .inr (.inr (.inr rfl)), .inl rfl⟩

theorem ofText_object {name expression : String} {d : Mapping} {o : Outline}
    (h : ofText name d expression = .ok o) {properties : List (String × Value)}
    (hshape : o.shape = .object properties) :
    readProperties o.name o.declaration = .ok properties := by
  obtain ⟨-, -, ⟨-, hne⟩ | ⟨properties', ho, hp⟩ | ⟨name', ho⟩ | ho, -⟩ := ofText_spec h
  · exact absurd (by rw [hshape]; rfl) hne
  · obtain rfl := Shape.object.inj (ho.symm.trans hshape)
    exact hp
  · cases ho.symm.trans hshape
  · have hkind := ofExpression_kind_ne_object (Text.trim (settleOptional name d expression).2.2)
    rw [← ho, hshape] at hkind
    exact absurd rfl hkind

/-! ## Reading a declaration -/

theorem ofDefinition_cases {name : String} {definition : Value} {o : Outline}
    (h : ofDefinition name definition = .ok o) :
    (∃ schema, definition = .embedded schema ∧
        o = ⟨"schema", [(.text "type", schema)], .embedded schema⟩) ∨
      ∃ d, Declaration.normalize definition = .ok d ∧
        ((∃ schema, d.field? "type" = some (.map schema) ∧
            o = ⟨rootElementName, d, .json schema⟩) ∨
          ∃ expression, d.field? "type" = some (.text expression) ∧
            ofText name d expression = .ok o) := by
  unfold ofDefinition at h
  split at h
  · next schema => exact .inl ⟨schema, rfl, (Except.ok.inj h).symm⟩
  · cases hd : Declaration.normalize definition with
      | error e => simp [hd, bind, Except.bind] at h
      | ok d =>
          obtain ⟨v, hv, -⟩ := Declaration.normalize_type hd
          simp only [hd, bind, Except.bind, Mapping.field_of_field? hv] at h
          refine .inr ⟨d, rfl, ?_⟩
          cases v with
          | map schema => exact .inl ⟨schema, hv, (Except.ok.inj h).symm⟩
          | text expression => exact .inr ⟨expression, hv, h⟩
          | _ => simp at h

theorem ofDefinition_kind {name : String} {definition : Value} {o : Outline}
    (h : ofDefinition name definition = .ok o) :
    (∃ schema, o.shape = .embedded schema ∧ o.declaration = [(.text "type", schema)]) ∨
      ∃ v, o.declaration.field? "type" = some v ∧ v.isNull = false ∧ o.shape.kind = typeKind v := by
  rcases ofDefinition_cases h with
    ⟨schema, -, rfl⟩ | ⟨d, -, ⟨schema, hd, rfl⟩ | ⟨expression, hd, ho⟩⟩
  · exact .inl ⟨schema, rfl, rfl⟩
  · exact .inr ⟨.map schema, hd, rfl, rfl⟩
  · obtain ⟨hdecl, hkind, -⟩ := ofText_spec ho
    refine .inr ⟨_, ?_, rfl, hkind⟩
    rw [hdecl]
    exact settleOptional_type hd

/-- Whether a declared name and its type expression have at most one mark each. -/
structure MarkedOnce (name : String) (definition : Value) : Prop where
  name : Text.endsIn '?' (Text.removeSuffix '?' name) = false
  type : ∀ d expression, Declaration.normalize definition = .ok d →
    d.field? "type" = some (.text expression) → isSchema expression = false →
      Text.endsIn '?' (Text.trimEnd (unmark expression)) = false

theorem rootElementName_unmarked : Text.endsIn '?' rootElementName = false := by
  decide

theorem ofDefinition_isUnmarked {name : String} {definition : Value} {o : Outline}
    (h : ofDefinition name definition = .ok o) (hm : MarkedOnce name definition) :
    (∃ schema, o = ⟨"schema", [(.text "type", schema)], .embedded schema⟩) ∨
      IsUnmarked o.name (o.declaration.field "type") := by
  rcases ofDefinition_cases h with
    ⟨schema, -, rfl⟩ | ⟨d, hd, ⟨schema, hs, rfl⟩ | ⟨expression, he, ho⟩⟩
  · exact .inl ⟨schema, rfl⟩
  · refine .inr ⟨rootElementName_unmarked, fun expression he => ?_⟩
    rw [Mapping.field_of_field? hs] at he
    cases he
  · obtain ⟨hdecl, -, -, hname⟩ := ofText_spec ho
    have hsettled := settleOptional_isUnmarked d hm.name (hm.type d expression hd he)
    rw [hdecl, Mapping.field_of_field? (settleOptional_type he)]
    refine .inr ⟨?_, hsettled.2⟩
    rcases hname with hname | hname
    · rw [hname]
      exact hsettled.1
    · rw [hname]
      exact rootElementName_unmarked

theorem ofDefinition_object {name : String} {definition : Value} {o : Outline}
    (h : ofDefinition name definition = .ok o) {properties : List (String × Value)}
    (hshape : o.shape = .object properties) :
    readProperties o.name o.declaration = .ok properties := by
  rcases ofDefinition_cases h with
    ⟨schema, -, rfl⟩ | ⟨d, -, ⟨schema, hd, rfl⟩ | ⟨expression, hd, ho⟩⟩
  · cases hshape
  · cases hshape
  · exact ofText_object ho hshape

/-- Reading a declaration touches no facets of it but the type and whether it is required. -/
theorem ofDefinition_normal_field? {name : String} {definition : Value} {d : Mapping}
    {o : Outline} (h : ofDefinition name definition = .ok o)
    (hd : Declaration.normalize definition = .ok d) {s : String} (htype : "type" ≠ s)
    (hrequired : "required" ≠ s) : o.declaration.field? s = d.field? s := by
  rcases ofDefinition_cases h with ⟨schema, rfl, -⟩ | ⟨d', hd', hrest⟩
  · cases hd
  · obtain rfl := Except.ok.inj (hd.symm.trans hd')
    rcases hrest with ⟨schema, -, rfl⟩ | ⟨expression, -, ho⟩
    · rfl
    · rw [(ofText_spec ho).1, settleOptional_field? _ name expression htype hrequired]

/-! ## Reading a declaration again

A mapping with a type, read as a declaration, is normal already. -/

section Again

variable {name : String} {m : Mapping} {v : Value} {o : Outline}

theorem ofDefinition_map_cases (hv : m.field? "type" = some v) (hnull : v.isNull = false)
    (h : ofDefinition name (.map m) = .ok o) :
    (∃ schema, v = .map schema ∧ o = ⟨rootElementName, m, .json schema⟩) ∨
      ∃ expression, v = .text expression ∧ ofText name m expression = .ok o := by
  rcases ofDefinition_cases h with ⟨schema, hd, -⟩ | ⟨d, hd, hrest⟩
  · cases hd
  · have hdm : d = m := by
      rw [← Declaration.withType_of_type hv hnull]
      exact (Except.ok.inj hd).symm
    subst hdm
    rcases hrest with ⟨schema, hs, rfl⟩ | ⟨expression, he, ho⟩
    · exact .inl ⟨schema, Option.some.inj (hv.symm.trans hs), rfl⟩
    · exact .inr ⟨expression, Option.some.inj (hv.symm.trans he), ho⟩

/-- A type that is no name is read as one of its own kind, marks or not. -/
theorem ofDefinition_map_kind (hv : m.field? "type" = some v) (hnull : v.isNull = false)
    (hk : typeKind v ≠ .reference) (h : ofDefinition name (.map m) = .ok o) :
    o.shape.kind = typeKind v := by
  rcases ofDefinition_map_cases hv hnull h with ⟨schema, rfl, rfl⟩ | ⟨expression, rfl, ho⟩
  · rfl
  · rw [(ofText_spec ho).2.1, settleOptional_kind m name hk]

theorem ofDefinition_map_field? (hv : m.field? "type" = some v) (hnull : v.isNull = false)
    (h : ofDefinition name (.map m) = .ok o) {s : String} (htype : "type" ≠ s)
    (hrequired : "required" ≠ s) : o.declaration.field? s = m.field? s := by
  rcases ofDefinition_map_cases hv hnull h with ⟨schema, rfl, rfl⟩ | ⟨expression, rfl, ho⟩
  · rfl
  · rw [(ofText_spec ho).1, settleOptional_field? m name expression htype hrequired]

theorem ofDefinition_map_isDict (hv : m.field? "type" = some v) (hnull : v.isNull = false)
    (hm : Mapping.IsDict m) (h : ofDefinition name (.map m) = .ok o) :
    Mapping.IsDict o.declaration := by
  rcases ofDefinition_map_cases hv hnull h with ⟨schema, rfl, rfl⟩ | ⟨expression, rfl, ho⟩
  · exact hm
  · rw [(ofText_spec ho).1]
    exact settleOptional_isDict hm name expression

/-- Without a mark the mapping is kept whole. -/
theorem ofDefinition_map_of_unmarked (hv : m.field? "type" = some v) (hnull : v.isNull = false)
    (hu : IsUnmarked name v) (h : ofDefinition name (.map m) = .ok o) : o.declaration = m := by
  rcases ofDefinition_map_cases hv hnull h with ⟨schema, rfl, rfl⟩ | ⟨expression, rfl, ho⟩
  · rfl
  · rw [(ofText_spec ho).1, settleOptional_of_unmarked hu]

end Again

end Outline

end Raml
