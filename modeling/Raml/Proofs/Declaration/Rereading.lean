import Raml.Proofs.DataType.Members

/-! # Outlines read alike

A declaration that is read under another name, or that is read again from what
was kept of it, has an outline of the same shape. A name counts by its mark
alone, and an expression by its text without a mark; all else that a shape is
read from are the `properties` and the `items`.
-/

namespace Raml

/-! ## Names -/

/-- Whether two names are the same or neither has a mark. -/
def MarkedAlike (name name' : String) : Prop :=
  name = name' ∨ Text.endsIn '?' name = false ∧ Text.endsIn '?' name' = false

theorem MarkedAlike.refl (name : String) : MarkedAlike name name := .inl rfl

theorem MarkedAlike.symm {name name' : String} (h : MarkedAlike name name') :
    MarkedAlike name' name :=
  h.imp Eq.symm And.symm

inductive Shape.Alike : Shape → Shape → Prop
  | same (shape : Shape) : Alike shape shape
  | items {name name' : String} {definition : Value} (h : MarkedAlike name name') :
      Alike (.array (some (name, definition))) (.array (some (name', definition)))

/-- The declarations nested in shapes that are alike are the same, under names marked alike. -/
theorem Shape.Alike.nested {shape shape' : Shape} (h : shape.Alike shape') :
    List.Forall₂ (fun p q => MarkedAlike p.1 q.1 ∧ p.2 = q.2) shape.nested shape'.nested := by
  cases h with
  | same => exact List.forall₂_same.2 fun p _ => ⟨.refl p.1, rfl⟩
  | items h => exact .cons ⟨h, rfl⟩ .nil

namespace Outline

/-! ## Expressions -/

/-- What a settled expression is read as is the expression without its mark. -/
theorem trim_settleOptional (name : String) (d : Mapping) {expression : String}
    (h : isSchema expression = false) :
    Text.trim (settleOptional name d expression).2.2 = Text.trim (unmark expression) := by
  unfold settleOptional
  split
  · simp only [h, Bool.false_eq_true, if_false, unmark]
  · next hopt =>
      rw [isOptional, Bool.not_eq_true, Bool.or_eq_false_iff] at hopt
      have hend : Text.endsIn '?' (Text.trimEnd expression) = false := by simpa [h] using hopt.2
      rw [unmark, Text.removeSuffix_of_not_endsIn hend, Text.trim_trimEnd]

theorem settleOptional_of_isSchema (name : String) (d : Mapping) {expression : String}
    (h : isSchema expression = true) : (settleOptional name d expression).2.2 = expression := by
  unfold settleOptional
  rw [h]
  split <;> rfl

/-- Whether two expressions are read alike: as the same word, and a schema as it stands. -/
structure SameText (expression expression' : String) : Prop where
  trim : Text.trim expression = Text.trim expression'
  schema : isSchema expression = true → expression = expression'

theorem SameText.refl (e : String) : SameText e e := ⟨rfl, fun _ => rfl⟩

theorem SameText.isSchema {e e' : String} (h : SameText e e') : isSchema e = isSchema e' := by
  have hiff : Outline.isSchema e = false ↔ Outline.isSchema e' = false := by
    rw [isSchema_eq_false_iff, isSchema_eq_false_iff, h.trim]
  cases he : Outline.isSchema e <;> cases he' : Outline.isSchema e' <;> simp [he, he'] at hiff ⊢

theorem settleOptional_sameText (name name' : String) (d d' : Mapping) (expression : String) :
    SameText (settleOptional name d expression).2.2 (settleOptional name' d' expression).2.2 := by
  cases hs : isSchema expression with
  | true =>
      rw [settleOptional_of_isSchema name d hs, settleOptional_of_isSchema name' d' hs]
      exact .refl _
  | false =>
      have htrim := trim_settleOptional name d hs
      refine ⟨htrim.trans (trim_settleOptional name' d' hs).symm, fun hschema => ?_⟩
      have hplain := (isSchema_eq_false_iff _).1 (isSchema_unmark hs)
      rw [← htrim, ← isSchema_eq_false_iff, hschema] at hplain
      cases hplain

/-- An expression without a mark is left as it is read. -/
theorem settleOptional_sameText_of_unmarked (name : String) (d : Mapping) {expression : String}
    (h : isSchema expression = false → Text.endsIn '?' (Text.trimEnd expression) = false) :
    SameText expression (settleOptional name d expression).2.2 := by
  cases hs : isSchema expression with
  | true =>
      rw [settleOptional_of_isSchema name d hs]
      exact .refl _
  | false =>
      refine ⟨?_, fun hschema => absurd hschema (by simp [hs])⟩
      rw [trim_settleOptional name d hs, unmark, Text.removeSuffix_of_not_endsIn (h hs),
        Text.trim_trimEnd]

/-- Names that are marked alike settle a declaration alike. -/
theorem settleOptional_of_markedAlike {name name' : String} (h : MarkedAlike name name')
    (d : Mapping) (expression : String) :
    (settleOptional name' d expression).2 = (settleOptional name d expression).2 ∧
      MarkedAlike (settleOptional name d expression).1 (settleOptional name' d expression).1 := by
  rcases h with rfl | ⟨hname, hname'⟩
  · exact ⟨rfl, .refl _⟩
  · have hsame : isOptional name' expression = isOptional name expression := by
      simp [isOptional, hname, hname']
    unfold settleOptional
    rw [hsame, Text.removeSuffix_of_not_endsIn hname, Text.removeSuffix_of_not_endsIn hname']
    split
    · dsimp only
      split <;> exact ⟨rfl, .inr ⟨hname, hname'⟩⟩
    · exact ⟨rfl, .inr ⟨hname, hname'⟩⟩

/-! ## Settled declarations -/

/-- The outline of a declaration whose marks are taken off. -/
def ofSettled (name : String) (d : Mapping) (expression : String) : Except Fault Outline :=
  let word := Text.trim expression
  match ScalarWord.ofText? word with
  | some scalar => .ok ⟨name, d, .scalar scalar⟩
  | none =>
      if word = "object" then do
        let properties ← readProperties name d
        .ok ⟨name, d, .object properties⟩
      else if word = "array" then .ok ⟨name, d, .array (readItems name d)⟩
      else if Text.startsIn '<' word then .ok ⟨rootElementName, d, .xml expression⟩
      else if Text.startsIn '\x7b' word then do
        let schema ← readSchema expression
        .ok ⟨rootElementName, d, .json schema⟩
      else .ok ⟨name, d, ofExpression word⟩

theorem ofText_eq (name : String) (d : Mapping) (expression : String) :
    ofText name d expression =
      ofSettled (settleOptional name d expression).1 (settleOptional name d expression).2.1
        (settleOptional name d expression).2.2 := by
  unfold ofText ofSettled
  generalize settleOptional name d expression = settled
  obtain ⟨name', d', expression'⟩ := settled
  rfl

/-- What a declaration whose marks are taken off settles to, by its word. -/
inductive SettlesTo (name : String) (d : Mapping) (expression : String) : Outline → Prop
  | scalar {word : ScalarWord} (hword : ScalarWord.ofText? (Text.trim expression) = some word) :
      SettlesTo name d expression ⟨name, d, .scalar word⟩
  | object {properties : List (String × Value)} (hword : Text.trim expression = "object")
      (hread : readProperties name d = .ok properties) :
      SettlesTo name d expression ⟨name, d, .object properties⟩
  | array (hword : Text.trim expression = "array") :
      SettlesTo name d expression ⟨name, d, .array (readItems name d)⟩
  | xml (hstart : Text.startsIn '<' (Text.trim expression) = true) :
      SettlesTo name d expression ⟨rootElementName, d, .xml expression⟩
  | json {schema : Mapping} (hstart : Text.startsIn '\x7b' (Text.trim expression) = true)
      (hread : readSchema expression = .ok schema) :
      SettlesTo name d expression ⟨rootElementName, d, .json schema⟩
  | plain (hscalar : ScalarWord.ofText? (Text.trim expression) = none)
      (hobject : Text.trim expression ≠ "object") (harray : Text.trim expression ≠ "array")
      (hs : isSchema expression = false) :
      SettlesTo name d expression ⟨name, d, ofExpression (Text.trim expression)⟩

theorem ofSettled_settlesTo {name expression : String} {d : Mapping} {o : Outline}
    (h : ofSettled name d expression = .ok o) : SettlesTo name d expression o := by
  unfold ofSettled at h
  cases hscalar : ScalarWord.ofText? (Text.trim expression) with
  | some word =>
      simp only [hscalar] at h
      obtain rfl := Except.ok.inj h
      exact .scalar hscalar
  | none =>
      simp only [hscalar] at h
      by_cases hobject : Text.trim expression = "object"
      · rw [if_pos hobject] at h
        obtain ⟨properties, hread, h⟩ := Except.bind_eq_ok_iff.1 h
        obtain rfl := Except.ok.inj h
        exact .object hobject hread
      rw [if_neg hobject] at h
      by_cases harray : Text.trim expression = "array"
      · rw [if_pos harray] at h
        obtain rfl := Except.ok.inj h
        exact .array harray
      rw [if_neg harray] at h
      by_cases hxml : Text.startsIn '<' (Text.trim expression) = true
      · rw [if_pos hxml] at h
        obtain rfl := Except.ok.inj h
        exact .xml hxml
      rw [if_neg hxml] at h
      by_cases hjson : Text.startsIn '\x7b' (Text.trim expression) = true
      · rw [if_pos hjson] at h
        obtain ⟨schema, hread, h⟩ := Except.bind_eq_ok_iff.1 h
        obtain rfl := Except.ok.inj h
        exact .json hjson hread
      rw [if_neg hjson] at h
      obtain rfl := Except.ok.inj h
      have hs := (isSchema_eq_false_iff expression).2 ⟨by simpa using hxml, by simpa using hjson⟩
      exact .plain hscalar hobject harray hs

theorem isSchema_of_startsIn {c : Char} {expression : String} (hc : c = '<' ∨ c = '\x7b')
    (h : Text.startsIn c (Text.trim expression) = true) : isSchema expression = true := by
  by_contra hplain
  have hstarts := (isSchema_eq_false_iff expression).1 (by simpa using hplain)
  cases hc with
  | inl hxml => simp [hxml, hstarts] at h
  | inr hjson => simp [hjson, hstarts] at h

theorem not_builtIn_of_startsIn {c : Char} {word : String} (hc : c = '<' ∨ c = '\x7b')
    (h : Text.startsIn c word = true) :
    ScalarWord.ofText? word = none ∧ word ≠ "object" ∧ word ≠ "array" := by
  have hfirst : ∀ other, ¬ Text.startsIn c other = true → word ≠ other :=
    fun other hother heq => hother (heq ▸ h)
  refine ⟨?_, hfirst "object" ?_, hfirst "array" ?_⟩
  · unfold ScalarWord.ofText?
    split
    all_goals first
      | rfl
      | (cases hc with
        | inl hxml => exact absurd h (hxml ▸ by decide)
        | inr hjson => exact absurd h (hjson ▸ by decide))
  all_goals
    cases hc with
    | inl hxml => exact hxml ▸ by decide
    | inr hjson => exact hjson ▸ by decide

theorem ofSettled_eq_ok_iff {name expression : String} {d : Mapping} {o : Outline} :
    ofSettled name d expression = .ok o ↔ SettlesTo name d expression o := by
  refine ⟨ofSettled_settlesTo, fun h => ?_⟩
  unfold ofSettled
  cases h with
  | scalar hword => simp only [hword]
  | object hword hread =>
      have hscalar : ScalarWord.ofText? "object" = none := rfl
      simp only [hword, hscalar, if_true, hread]
      rfl
  | array hword =>
      have hscalar : ScalarWord.ofText? "array" = none := rfl
      have hobject : "array" ≠ "object" := by decide
      simp only [hword, hscalar, hobject, if_true, if_false]
  | xml hstart =>
      obtain ⟨hscalar, hobject, harray⟩ := not_builtIn_of_startsIn (.inl rfl) hstart
      simp only [hscalar, hobject, harray, hstart, if_true, if_false]
  | json hstart hread =>
      obtain ⟨hscalar, hobject, harray⟩ := not_builtIn_of_startsIn (.inr rfl) hstart
      have hxml : ¬ Text.startsIn '<' (Text.trim expression) = true := by
        rw [Text.startsIn, decide_eq_true_iff] at hstart ⊢
        rw [hstart]
        decide
      simp only [hscalar, hobject, harray, hxml, hstart, if_true, if_false, hread]
      rfl
  | plain hscalar hobject harray hs =>
      obtain ⟨hxml, hjson⟩ := (isSchema_eq_false_iff expression).1 hs
      simp only [hscalar, hobject, harray, hxml, hjson, if_false, Bool.false_eq_true]

theorem readProperties_rename {name name' : String} {d d' : Mapping}
    (h : d.field "properties" = d'.field "properties") {properties : List (String × Value)}
    (hread : readProperties name d = .ok properties) :
    readProperties name' d' = .ok properties := by
  unfold readProperties at hread ⊢
  dsimp only at hread ⊢
  rw [h] at hread
  split at hread
  · next hempty => rw [if_pos hempty, hread]
  · next hempty =>
      rw [if_neg hempty]
      split at hread
      · next entries hentries => exact hread
      · cases hread

theorem endsIn_append_item (name : String) : Text.endsIn '?' (name ++ "Item") = false := by
  simp [Text.endsIn]

theorem readItems_alike (name name' : String) {d d' : Mapping}
    (h : d.field "items" = d'.field "items") :
    (Shape.array (readItems name d)).Alike (.array (readItems name' d')) := by
  unfold readItems
  rw [h]
  split
  · exact .same _
  · exact .same _
  · exact .items (.inr ⟨endsIn_append_item name, endsIn_append_item name'⟩)

/-- A settled declaration is read alike from any mapping with the same items and, for an object, the
same properties: the outline keeps the mapping, and the name unless it is a schema's. -/
theorem ofSettled_alike (name' : String) {name e e' : String} {d d' : Mapping} {o : Outline}
    (he : SameText e e')
    (hproperties : ∀ ps, o.shape = .object ps → d.field "properties" = d'.field "properties")
    (hitems : d.field "items" = d'.field "items") (h : ofSettled name d e = .ok o) :
    ∃ o', ofSettled name' d' e' = .ok o' ∧ o.declaration = d ∧ o'.declaration = d' ∧
      o.shape.Alike o'.shape ∧ (o.name = name ∧ o'.name = name' ∨ o.name = o'.name) := by
  have hsettled : ∀ {o' : Outline}, SettlesTo name' d' e' o' → ofSettled name' d' e' = .ok o' :=
    ofSettled_eq_ok_iff.2
  cases ofSettled_eq_ok_iff.1 h with
  | scalar hword =>
      have ho := hsettled (.scalar (he.trim ▸ hword))
      exact ⟨_, ho, rfl, rfl, .same _, .inl ⟨rfl, rfl⟩⟩
  | object hword hread =>
      have ho := hsettled (.object (he.trim ▸ hword)
        (readProperties_rename (hproperties _ rfl) hread))
      exact ⟨_, ho, rfl, rfl, .same _, .inl ⟨rfl, rfl⟩⟩
  | array hword =>
      have ho := hsettled (.array (he.trim ▸ hword))
      exact ⟨_, ho, rfl, rfl, readItems_alike name name' hitems, .inl ⟨rfl, rfl⟩⟩
  | xml hstart =>
      obtain rfl := he.schema (isSchema_of_startsIn (.inl rfl) hstart)
      exact ⟨_, hsettled (.xml hstart), rfl, rfl, .same _, .inr rfl⟩
  | json hstart hread =>
      obtain rfl := he.schema (isSchema_of_startsIn (.inr rfl) hstart)
      exact ⟨_, hsettled (.json hstart hread), rfl, rfl, .same _, .inr rfl⟩
  | plain hscalar hobject harray hs =>
      rw [he.trim] at hscalar hobject harray ⊢
      have ho := hsettled (.plain hscalar hobject harray (he.isSchema ▸ hs))
      exact ⟨_, ho, rfl, rfl, .same _, .inl ⟨rfl, rfl⟩⟩

/-! ## Declarations -/

theorem ofDefinition_of_text {definition : Value} {d : Mapping} {expression : String}
    (hd : Declaration.normalize definition = .ok d)
    (he : d.field? "type" = some (.text expression)) (name : String) :
    ofDefinition name definition = ofText name d expression := by
  cases definition with
  | embedded schema => cases hd
  | _ => simp [ofDefinition, hd, Bind.bind, Except.bind, Mapping.field_of_field? he]

theorem ofDefinition_of_schema {definition : Value} {d schema : Mapping}
    (hd : Declaration.normalize definition = .ok d)
    (hs : d.field? "type" = some (.map schema)) (name : String) :
    ofDefinition name definition = .ok ⟨rootElementName, d, .json schema⟩ := by
  cases definition with
  | embedded schema => cases hd
  | _ => simp [ofDefinition, hd, Bind.bind, Except.bind, Mapping.field_of_field? hs]

/-- A mapping with a type is normal already. -/
theorem normalize_map {m : Mapping} {v : Value} (hv : m.field? "type" = some v)
    (hnull : v.isNull = false) : Declaration.normalize (.map m) = .ok m :=
  congrArg Except.ok (Declaration.withType_of_type hv hnull)

/-- Under a name that is marked alike, a declaration has an outline that is alike and keeps the same
of it. -/
theorem ofDefinition_rename {name name' : String} {definition : Value} {o : Outline}
    (h : ofDefinition name definition = .ok o) (hname : MarkedAlike name name') :
    ∃ o', ofDefinition name' definition = .ok o' ∧ o'.declaration = o.declaration ∧
      o.shape.Alike o'.shape ∧ MarkedAlike o.name o'.name := by
  rcases ofDefinition_cases h with
    ⟨schema, rfl, rfl⟩ | ⟨d, hd, ⟨schema, hs, rfl⟩ | ⟨expression, he, ho⟩⟩
  · exact ⟨_, rfl, rfl, .same _, .refl _⟩
  · exact ⟨_, ofDefinition_of_schema hd hs name', rfl, .same _, .refl _⟩
  · rw [ofDefinition_of_text hd he, ofText_eq]
    rw [ofText_eq] at ho
    obtain ⟨hsettled, hnames⟩ := settleOptional_of_markedAlike hname d expression
    rw [hsettled]
    obtain ⟨o', ho', hd, hd', hshape, hwhere⟩ :=
      ofSettled_alike (settleOptional name' d expression).1 (.refl _) (fun _ _ => rfl) rfl ho
    refine ⟨o', ho', hd'.trans hd.symm, hshape, ?_⟩
    rcases hwhere with ⟨hleft, hright⟩ | hroot
    · rwa [hleft, hright]
    · exact .inl hroot

/-- Mappings with the same type, properties and items are read alike, whatever the names. -/
theorem ofDefinition_map_alike {name : String} {m m' : Mapping} {v : Value} {o : Outline}
    (hv : m.field? "type" = some v) (hv' : m'.field? "type" = some v) (hnull : v.isNull = false)
    (hproperties : m.field "properties" = m'.field "properties")
    (hitems : m.field "items" = m'.field "items") (h : ofDefinition name (.map m) = .ok o)
    (name' : String) :
    ∃ o', ofDefinition name' (.map m') = .ok o' ∧ o.shape.Alike o'.shape := by
  rcases ofDefinition_map_cases hv hnull h with ⟨schema, rfl, rfl⟩ | ⟨expression, rfl, ho⟩
  · exact ⟨_, ofDefinition_of_schema (normalize_map hv' hnull) hv' name', .same _⟩
  · rw [ofDefinition_of_text (normalize_map hv' hnull) hv', ofText_eq]
    rw [ofText_eq] at ho
    have hfield : ∀ {s : String}, "type" ≠ s → "required" ≠ s → m.field s = m'.field s →
        (settleOptional name m expression).2.1.field s =
          (settleOptional name' m' expression).2.1.field s := fun {s} htype hrequired heq => by
      simpa only [Mapping.field, settleOptional_field? _ _ _ htype hrequired] using heq
    obtain ⟨o', ho', -, -, hshape, -⟩ :=
      ofSettled_alike (settleOptional name' m' expression).1
        (settleOptional_sameText name name' m m' expression)
        (fun _ _ => hfield (by decide) (by decide) hproperties)
        (hfield (by decide) (by decide) hitems) ho
    exact ⟨o', ho', hshape⟩

/-- Whether the type that a declaration keeps has no mark. -/
def KeepsUnmarked (d : Mapping) : Prop :=
  ∀ expression, d.field? "type" = some (.text expression) → isSchema expression = false →
    Text.endsIn '?' (Text.trimEnd expression) = false

theorem KeepsUnmarked.of_type {d : Mapping} {expression : String}
    (h : d.field? "type" = some (.text expression))
    (hmark : Text.endsIn '?' (Text.trimEnd expression) = false) : KeepsUnmarked d := by
  intro expression' h' _
  obtain rfl : expression = expression' := by simpa [h] using h'
  exact hmark

/-- A mapping that has the type, the items and, for an object, the properties that were kept of a
declaration is read as the declaration was; a schema that was decoded elsewhere becomes an inline
one. -/
theorem ofDefinition_again {name name' : String} {definition : Value} {m : Mapping}
    {o o' : Outline} (h : ofDefinition name definition = .ok o)
    (hmap : ∀ schema, o.shape = .embedded schema → ∃ entries, schema = .map entries)
    (hmark : KeepsUnmarked o.declaration)
    (htype : m.field? "type" = o.declaration.field? "type")
    (hproperties : ∀ ps, o.shape = .object ps →
      o.declaration.field "properties" = m.field "properties")
    (hitems : o.declaration.field "items" = m.field "items")
    (h' : ofDefinition name' (.map m) = .ok o') :
    o.shape.Alike o'.shape ∨
      ∃ schema, o = ⟨"schema", [(.text "type", .map schema)], .embedded (.map schema)⟩ ∧
        o'.shape = .json schema := by
  rcases ofDefinition_cases h with
    ⟨schema, -, rfl⟩ | ⟨d, -, ⟨schema, hs, rfl⟩ | ⟨expression, he, ho⟩⟩
  · obtain ⟨entries, rfl⟩ := hmap schema rfl
    have hv : m.field? "type" = some (.map entries) := htype
    rw [ofDefinition_of_schema (normalize_map hv rfl) hv] at h'
    obtain rfl := Except.ok.inj h'
    exact .inr ⟨entries, rfl, rfl⟩
  · have hv : m.field? "type" = some (.map schema) := htype.trans hs
    rw [ofDefinition_of_schema (normalize_map hv rfl) hv] at h'
    obtain rfl := Except.ok.inj h'
    exact .inl (.same _)
  · have hkept : (settleOptional name d expression).2.1.field? "type" =
        some (.text (settleOptional name d expression).2.2) := settleOptional_type he
    rw [← (ofText_spec ho).1] at hkept
    have hv := htype.trans hkept
    rw [ofDefinition_of_text (normalize_map hv rfl) hv, ofText_eq] at h'
    have hd := (ofText_spec ho).1
    rw [ofText_eq] at ho
    rw [hd] at hproperties hitems
    have hfield : ∀ {s : String}, "type" ≠ s → "required" ≠ s →
        (settleOptional name d expression).2.1.field s = m.field s →
        (settleOptional name d expression).2.1.field s =
          (settleOptional name' m (settleOptional name d expression).2.2).2.1.field s :=
      fun {s} htype hrequired heq => by
        simpa only [Mapping.field, settleOptional_field? m _ _ htype hrequired] using heq
    obtain ⟨o'', ho'', -, -, hshape, -⟩ :=
      ofSettled_alike (settleOptional name' m (settleOptional name d expression).2.2).1
        (settleOptional_sameText_of_unmarked name' m (hmark _ hkept))
        (fun ps hps => hfield (by decide) (by decide) (hproperties ps hps))
        (hfield (by decide) (by decide) hitems) ho
    obtain rfl := Except.ok.inj (ho''.symm.trans h')
    exact .inl hshape

end Outline

end Raml
