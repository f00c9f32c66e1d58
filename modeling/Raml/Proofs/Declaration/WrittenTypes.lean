import Raml.Proofs.Declaration.Rereading

/-! # Written type expressions

A type expression is a name, an item followed by brackets, or members with bars
between them; blanks may stand before brackets and around bars. What is written
so is read as the type that the expression stands for, whatever the blanks. A
question mark at its end makes the type optional and changes nothing else.
-/

namespace Raml

/-! ## Expressions -/

structure TypeName where
  text : String
  nonempty : text ≠ ""
  trimmed : Text.trim text = text
  noBar : '|' ∉ text.toList
  noBrackets : ¬ ['[', ']'] <:+: text.toList
  unmarked : Text.endsIn '?' text = false
  noXml : Text.startsIn '<' text = false
  noJson : Text.startsIn '\x7b' text = false

inductive ItemExpression
  | name (n : TypeName)
  | array (item : ItemExpression)

inductive TypeExpression
  | item (e : ItemExpression)
  | union (first second : ItemExpression) (rest : List ItemExpression)

def Text.Blanks (cs : List Char) : Prop := ∀ c ∈ cs, isBlank c = true

inductive ItemExpression.Writes : ItemExpression → List Char → Prop
  | name (n : TypeName) : Writes (.name n) n.text.toList
  | array {item : ItemExpression} {cs blanks : List Char} (h : Writes item cs)
      (hblanks : Text.Blanks blanks) : Writes (.array item) (cs ++ blanks ++ ['[', ']'])

/-- Whether members are written with the given characters, bars between them. -/
inductive ItemExpression.WritesAll : List ItemExpression → List Char → Prop
  | last {e : ItemExpression} {cs : List Char} (h : e.Writes cs) : WritesAll [e] cs
  | more {e : ItemExpression} {es : List ItemExpression} {cs before after rest : List Char}
      (h : e.Writes cs) (hbefore : Text.Blanks before) (hafter : Text.Blanks after)
      (hrest : WritesAll es rest) : WritesAll (e :: es) (cs ++ before ++ '|' :: (after ++ rest))

def TypeExpression.Writes : TypeExpression → List Char → Prop
  | .item e => e.Writes
  | .union first second rest => ItemExpression.WritesAll (first :: second :: rest)

/-! ## What they stand for -/

/-- What is common to types that are declared by an expression alone. -/
def Common.plain (name : String) (d : Mapping) : Common :=
  { name, required := true, default := .null, sample := .null, samples := .null,
    displayName := none, description := none, enum := none, parent := none, declaration := d }

def ObjectFacets.unbounded : ObjectFacets := ⟨none, none, true, none, .null⟩

def ArrayFacets.unbounded : ArrayFacets := ⟨none, none, false⟩

def NumberFacets.unbounded : NumberFacets := ⟨none, none, none, none⟩

namespace DataType

def plainScalar : ScalarWord → Scalar
  | .any => .any
  | .string => .string ⟨none, none, none⟩
  | .number => .number .unbounded
  | .integer => .integer .unbounded
  | .boolean => .boolean
  | .nil => .nil
  | .file => .file ⟨none, none, none⟩
  | .temporal kind => .temporal kind none

def scalarNames : Table String ScalarWord :=
  [("any", .any), ("string", .string), ("number", .number), ("integer", .integer),
    ("boolean", .boolean), ("nil", .nil), ("file", .file), ("date-only", .temporal .dateOnly),
    ("time-only", .temporal .timeOnly), ("datetime-only", .temporal .dateTimeOnly),
    ("datetime", .temporal .dateTime)]

/-- The built-in types by their names, each without constraints. -/
def builtIn : Table String (Common → DataType) :=
  scalarNames.map (fun e => (e.1, fun c => .scalar c (plainScalar e.2))) ++
    [("object", fun c => .object c .unbounded []), ("array", fun c => .array c .unbounded none)]

end DataType

/-- Whether a type is what an item stands for. `bound` says whether references can be looked up. -/
inductive ItemExpression.Denotes (bound : Bool) : ItemExpression → DataType → Prop
  | builtIn {n : TypeName} {make : Common → DataType}
      (h : DataType.builtIn.get? n.text = some make) (name : String) (d : Mapping) :
      Denotes bound (.name n) (make (.plain name d))
  | reference {n : TypeName} (h : DataType.builtIn.get? n.text = none) (name : String)
      (d : Mapping) : Denotes bound (.name n) (.reference (.plain name d) n.text bound)
  | array {item : ItemExpression} {t : DataType} (h : Denotes bound item t) (name : String)
      (d : Mapping) : Denotes bound (.array item) (.array (.plain name d) .unbounded (some t))

inductive TypeExpression.Denotes (bound : Bool) : TypeExpression → DataType → Prop
  | item {e : ItemExpression} {t : DataType} (h : e.Denotes bound t) : Denotes bound (.item e) t
  | union {first second : ItemExpression} {rest : List ItemExpression} {members : List DataType}
      (h : List.Forall₂ (ItemExpression.Denotes bound) (first :: second :: rest) members)
      (name : String) (d : Mapping) :
      Denotes bound (.union first second rest) (.union (.plain name d) members)

namespace DataType

def madeOptional (t : DataType) : DataType :=
  t.mapCommon fun c =>
    { c with required := false, declaration := c.declaration.setField "required" (.bool false) }

end DataType

/-! ## Characters at the ends -/

namespace Text

/-- Whether some characters begin and end with ones that are not blank, begin like no schema and
end in no mark. -/
structure Delimited (cs : List Char) : Prop where
  first : ∃ c rest, cs = c :: rest ∧ isBlank c = false ∧ c ≠ '<' ∧ c ≠ '\x7b'
  last : ∃ front c, cs = front ++ [c] ∧ isBlank c = false ∧ c ≠ '?'

theorem Delimited.append {cs ds : List Char} (hc : Delimited cs) (hd : Delimited ds)
    (between : List Char) : Delimited (cs ++ between ++ ds) where
  first := by
    obtain ⟨c, rest, rfl, hfirst⟩ := hc.first
    exact ⟨c, rest ++ between ++ ds, by simp, hfirst⟩
  last := by
    obtain ⟨front, c, rfl, hlast⟩ := hd.last
    exact ⟨cs ++ between ++ front, c, by simp, hlast⟩

theorem Delimited.dropBlankEnd {cs : List Char} (h : Delimited cs) : dropBlankEnd cs = cs := by
  obtain ⟨front, c, rfl, hc, -⟩ := h.last
  simp [Text.dropBlankEnd, hc]

theorem Delimited.trim {cs blanks : List Char} (h : Delimited cs) (hblanks : Blanks blanks) :
    Text.trim (String.ofList (cs ++ blanks)) = String.ofList cs := by
  have hstart : Text.dropBlank (cs ++ blanks) = cs ++ blanks := by
    obtain ⟨c, rest, rfl, hc, -⟩ := h.first
    simp [Text.dropBlank, hc]
  rw [Text.trim, String.toList_ofList, hstart, dropBlankEnd_append_blanks _ hblanks, h.dropBlankEnd]

theorem trim_blanks_append {blanks : List Char} (h : Blanks blanks) (cs : List Char) :
    Text.trim (String.ofList (blanks ++ cs)) = Text.trim (String.ofList cs) := by
  have hstart : dropBlank (blanks ++ cs) = dropBlank cs := List.dropWhile_append_of_pos h
  rw [Text.trim, Text.trim, String.toList_ofList, String.toList_ofList, hstart]

theorem Delimited.trim_self {s : String} (h : Delimited s.toList) : Text.trim s = s := by
  obtain ⟨first, rest, hs, hfirst, -⟩ := h.first
  obtain ⟨front, last, hs', hlast, -⟩ := h.last
  exact trim_eq_self hs hfirst hs' hlast

theorem Delimited.isSchema_append {s : String} (h : Delimited s.toList) (after : String) :
    Outline.isSchema (s ++ after) = false := by
  obtain ⟨c, rest, hs, hc, hxml, hjson⟩ := h.first
  simp [Outline.isSchema, Text.dropBlank, String.toList_append, hs, hc, hxml, hjson]

theorem Delimited.isSchema {s : String} (h : Delimited s.toList) : Outline.isSchema s = false := by
  simpa using h.isSchema_append ""

theorem Delimited.unmarked {s : String} (h : Delimited s.toList) :
    Text.endsIn '?' s = false := by
  obtain ⟨front, c, hs, hc, hmark⟩ := h.last
  simpa [Text.endsIn, hs] using hmark

theorem Delimited.trimEnd_self {s : String} (h : Delimited s.toList) : Text.trimEnd s = s := by
  rw [Text.trimEnd, h.dropBlankEnd, String.ofList_toList]

end Text

theorem TypeName.delimited (n : TypeName) : Text.Delimited n.text.toList := by
  have hne : n.text.toList ≠ [] := by simpa using n.nonempty
  have hhead := Text.head?_trim n.text
  have hlast := Text.getLast?_trim n.text
  rw [n.trimmed] at hhead hlast
  rw [Text.trimEnd, String.toList_ofList, Text.getLast?_dropBlankEnd] at hlast
  constructor
  · obtain ⟨c, rest, hcs⟩ := List.exists_cons_of_ne_nil hne
    have hxml := n.noXml
    have hjson := n.noJson
    rw [hcs] at hhead
    simp only [Text.startsIn, hcs] at hxml hjson
    have hblank := List.find?_some hhead.symm
    exact ⟨c, rest, hcs, by simpa using hblank, by simpa using hxml, by simpa using hjson⟩
  · obtain ⟨front, c, hcs⟩ := (List.eq_nil_or_concat' n.text.toList).resolve_left hne
    have hmark := n.unmarked
    rw [hcs, List.getLast?_concat] at hlast
    simp only [Text.endsIn, hcs] at hmark
    have hblank := List.find?_some hlast.symm
    exact ⟨front, c, hcs, by simpa using hblank, by simpa using hmark⟩

namespace ItemExpression

theorem Writes.delimited {e : ItemExpression} {cs : List Char} (h : e.Writes cs) :
    Text.Delimited cs := by
  induction h with
  | name n => exact n.delimited
  | @array item cs blanks _ _ ih =>
      have hbrackets : Text.Delimited ['[', ']'] :=
        ⟨⟨'[', [']'], rfl, by decide⟩, ⟨['['], ']', rfl, by decide⟩⟩
      exact ih.append hbrackets blanks

theorem WritesAll.delimited {es : List ItemExpression} {cs : List Char} (h : WritesAll es cs) :
    Text.Delimited cs := by
  induction h with
  | last h => exact h.delimited
  | @more e es cs before after rest h _ _ _ ih =>
      have hwhole := h.delimited.append ih (before ++ '|' :: after)
      rwa [show cs ++ (before ++ '|' :: after) ++ rest = cs ++ before ++ '|' :: (after ++ rest) by
        simp] at hwhole

theorem not_mem_of_blanks {blanks : List Char} (h : Text.Blanks blanks) : '|' ∉ blanks :=
  fun hmem => absurd (h _ hmem) (by decide)

theorem Writes.noBar {e : ItemExpression} {cs : List Char} (h : e.Writes cs) : '|' ∉ cs := by
  induction h with
  | name n => exact n.noBar
  | array _ hblanks ih => simp [ih, not_mem_of_blanks hblanks]

end ItemExpression

theorem TypeExpression.Writes.delimited {e : TypeExpression} {cs : List Char} (h : e.Writes cs) :
    Text.Delimited cs := by
  cases e with
  | item e => exact ItemExpression.Writes.delimited h
  | union first second rest => exact ItemExpression.WritesAll.delimited h

/-! ## Cutting at bars and brackets -/

namespace Text

theorem splitChars_append {sep : Char} {cs : List Char} (h : sep ∉ cs) (rest : List Char) :
    ∃ piece pieces, splitChars sep rest = piece :: pieces ∧
      splitChars sep (cs ++ rest) = (cs ++ piece) :: pieces := by
  induction cs with
  | nil =>
      obtain ⟨piece, pieces, hpieces⟩ := List.exists_cons_of_ne_nil (splitChars_ne_nil sep rest)
      exact ⟨piece, pieces, hpieces, hpieces⟩
  | cons c cs ih =>
      obtain ⟨piece, pieces, hrest, hcs⟩ := ih (List.not_mem_of_not_mem_cons h)
      have hne : c ≠ sep := fun heq => h (by simp [heq])
      exact ⟨piece, pieces, hrest, by simp [splitChars, hne, hcs]⟩

theorem splitChars_cons {sep : Char} {cs : List Char} (h : sep ∉ cs) (rest : List Char) :
    splitChars sep (cs ++ sep :: rest) = cs :: splitChars sep rest := by
  obtain ⟨piece, pieces, hrest, hcs⟩ := splitChars_append h (sep :: rest)
  simp only [splitChars, if_true, List.cons.injEq] at hrest
  obtain ⟨rfl, rfl⟩ := hrest
  simpa using hcs

theorem splitChars_single {sep : Char} {cs : List Char} (h : sep ∉ cs) :
    splitChars sep cs = [cs] := by
  obtain ⟨piece, pieces, hrest, hcs⟩ := splitChars_append h []
  simp only [splitChars, List.cons.injEq] at hrest
  obtain ⟨rfl, rfl⟩ := hrest
  simpa using hcs

theorem beforeLast?_append (marker cs : List Char) (h : beforeLast? marker marker = some []) :
    beforeLast? marker (cs ++ marker) = some cs := by
  induction cs with
  | nil => exact h
  | cons c cs ih => simp [beforeLast?, ih]

end Text

theorem ItemExpression.WritesAll.splitUnion {es : List ItemExpression} {cs : List Char}
    (h : WritesAll es cs) :
    List.Forall₂ (fun e s => e.Writes s.toList) es (Outline.splitUnion (String.ofList cs)) := by
  rw [Outline.splitUnion, Text.splitAt, String.toList_ofList, List.map_map]
  induction h with
  | @last e cs h =>
      have htrim := h.delimited.trim (show Text.Blanks [] by simp [Text.Blanks])
      rw [List.append_nil] at htrim
      rw [Text.splitChars_single h.noBar]
      refine .cons ?_ .nil
      rwa [Function.comp_apply, htrim, String.toList_ofList]
  | @more e es cs before after rest h hbefore hafter _ ih =>
      have hnoBar : '|' ∉ cs ++ before := by simp [h.noBar, not_mem_of_blanks hbefore]
      obtain ⟨piece, pieces, hrest, hafterRest⟩ :=
        Text.splitChars_append (not_mem_of_blanks hafter) rest
      rw [hrest] at ih
      rw [Text.splitChars_cons hnoBar, hafterRest]
      refine .cons ?_ ?_
      · rwa [Function.comp_apply, h.delimited.trim hbefore, String.toList_ofList]
      · rw [List.map_cons, Function.comp_apply, Text.trim_blanks_append hafter]
        exact ih

/-! ## Declarations by an expression alone -/

/-- Whether a declaration has no fields but its type and whether it is required. -/
def Mapping.IsBare (d : Mapping) : Prop :=
  ∀ s, "type" ≠ s → "required" ≠ s → d.field? s = none

namespace DataType

variable {d : Mapping}

theorem readScalar_bare (h : d.IsBare) (word : ScalarWord) :
    readScalar d word = .ok (plainScalar word) := by
  cases word with
  | any | boolean | nil => rfl
  | string | number | integer | file | temporal =>
      simp [readScalar, TextFacets.read, NumberFacets.read, FileFacets.read, readFormat,
        Field.readOptional_absent, h _]
      rfl

theorem objectFacets_bare (h : d.IsBare) : ObjectFacets.read d = .ok .unbounded := by
  simp [ObjectFacets.read, Field.readOptional_absent, Field.read_absent, h _]
  rfl

theorem arrayFacets_bare (h : d.IsBare) : ArrayFacets.read d = .ok .unbounded := by
  simp [ArrayFacets.read, Field.readOptional_absent, Field.read_absent, h _]
  rfl

theorem readMembers_bare (h : d.IsBare) (built : List DataType) :
    readMembers d built = .ok built := by
  simp [readMembers, h _]

end DataType

namespace Declaration

def ofExpression (expression : String) : Mapping := [(.text "type", .text expression)]

/-- The declaration by an expression alone of what is not required. -/
def optionalOf (expression : String) : Mapping :=
  (ofExpression expression).setField "required" (.bool false)

theorem ofExpression_isBare (expression : String) : (ofExpression expression).IsBare := by
  intro s htype _
  simp [ofExpression, Mapping.field?, Table.get?, htype]

theorem optionalOf_isBare (expression : String) : (optionalOf expression).IsBare := by
  intro s htype hrequired
  rw [optionalOf, Mapping.field?_setField, if_neg hrequired]
  exact ofExpression_isBare expression s htype hrequired

end Declaration

theorem Common.read_ofExpression (name expression : String) :
    Common.read name (Declaration.ofExpression expression) =
      .ok (.plain name (Declaration.ofExpression expression)) := rfl

theorem Common.read_optionalOf (name expression : String) :
    Common.read name (Declaration.optionalOf expression) =
      .ok { Common.plain name (Declaration.optionalOf expression) with required := false } := rfl

/-! ## Reading expressions -/

namespace DataType

/-- The type of a declaration whose marks are taken off. -/
def buildSettled (bound : Bool) (name : String) (d : Mapping) (expression : String) :
    Except Fault DataType := do
  let o ← Outline.ofSettled name d expression
  let nested ← o.shape.nested.mapM fun p => build bound p.1 p.2
  assemble bound o nested

structure Reads (bound : Bool) (expression : String) (make : Common → DataType) : Prop where
  common : ∀ c, (make c).common = c
  uniform : ∀ c f, (make c).mapCommon f = make (f c)
  settled : ∀ name d c, d.IsBare → Common.read name d = .ok c →
    buildSettled bound name d expression = .ok (make c)

variable {bound : Bool} {expression : String}

theorem buildSettled_eq_ok {name : String} {d : Mapping} {shape : Shape} {nested : List DataType}
    {t : DataType} (ho : Outline.ofSettled name d expression = .ok ⟨name, d, shape⟩)
    (hnested : shape.nested.mapM (fun p => build bound p.1 p.2) = .ok nested)
    (ht : IsAssembly bound name d nested shape t) :
    buildSettled bound name d expression = .ok t := by
  have hassemble : assemble bound ⟨name, d, shape⟩ nested = .ok t := assemble_eq_ok_iff.2 ht
  rw [buildSettled, Except.bind_eq_ok_iff]
  refine ⟨_, ho, ?_⟩
  rw [Except.bind_eq_ok_iff]
  exact ⟨nested, hnested, hassemble⟩

/-! ### Built-in names -/

theorem reads_scalar {word : ScalarWord} (h : (expression, word) ∈ scalarNames) :
    Reads bound expression fun c => .scalar c (plainScalar word) where
  common _ := rfl
  uniform _ _ := rfl
  settled name d c hd hc := by
    have hnames : ∀ e ∈ scalarNames,
        Text.trim e.1 = e.1 ∧ ScalarWord.ofText? e.1 = some e.2 := by decide
    obtain ⟨htrim, hword⟩ := hnames _ h
    dsimp only at htrim hword
    have ho : Outline.ofSettled name d expression = .ok ⟨name, d, .scalar word⟩ :=
      Outline.ofSettled_eq_ok_iff.2 (.scalar (htrim.symm ▸ hword))
    exact buildSettled_eq_ok ho rfl (.scalar hc (readScalar_bare hd word))

theorem reads_object : Reads bound "object" fun c => .object c .unbounded [] where
  common _ := rfl
  uniform _ _ := rfl
  settled name d c hd hc := by
    have hproperties : Outline.readProperties name d = .ok [] := by
      simp [Outline.readProperties, Mapping.field, hd _, Value.isEmpty]
    have ho : Outline.ofSettled name d "object" = .ok ⟨name, d, .object []⟩ :=
      Outline.ofSettled_eq_ok_iff.2 (.object (by decide) hproperties)
    exact buildSettled_eq_ok ho rfl (.object hc (objectFacets_bare hd))

theorem reads_array : Reads bound "array" fun c => .array c .unbounded none where
  common _ := rfl
  uniform _ _ := rfl
  settled name d c hd hc := by
    have hitems : Outline.readItems name d = none := by
      simp [Outline.readItems, Mapping.field, hd _]
    have ho : Outline.ofSettled name d "array" = .ok ⟨name, d, .array none⟩ :=
      Outline.ofSettled_eq_ok_iff.2 (hitems ▸ .array (by decide))
    have hnested : (Shape.array none).nested.mapM (fun p => build bound p.1 p.2) = .ok [] := rfl
    exact buildSettled_eq_ok ho hnested (.array hc (arrayFacets_bare hd))

theorem reads_builtIn {make : Common → DataType} (h : builtIn.get? expression = some make) :
    Reads bound expression make := by
  obtain ⟨k, hk, hmem⟩ := Table.mem_of_get? h
  obtain rfl := eq_of_beq hk
  rcases List.mem_append.1 hmem with hscalar | hother
  · obtain ⟨⟨name, word⟩, hname, heq⟩ := List.mem_map.1 hscalar
    obtain ⟨rfl, rfl⟩ := Prod.mk.inj heq
    exact reads_scalar hname
  · simp only [List.mem_cons, Prod.mk.injEq, List.not_mem_nil, or_false] at hother
    rcases hother with ⟨rfl, rfl⟩ | ⟨rfl, rfl⟩
    · exact reads_object
    · exact reads_array

/-! ### Other expressions -/

/-- An expression that is no built-in name is a reference, an array or a union. -/
theorem ofSettled_of_get?_eq_none (h : builtIn.get? expression = none)
    (hd : Text.Delimited expression.toList) (name : String) (d : Mapping) :
    Outline.ofSettled name d expression = .ok ⟨name, d, Outline.ofExpression expression⟩ := by
  have hword : ScalarWord.ofText? expression = none := by
    unfold ScalarWord.ofText?
    split
    · exact absurd hd (by rintro ⟨⟨c, rest, hnil, -⟩, -⟩; cases hnil)
    all_goals first
      | rfl
      | cases h
  have hobject : expression ≠ "object" := by
    rintro rfl
    cases h
  have harray : expression ≠ "array" := by
    rintro rfl
    cases h
  rw [← hd.trim_self] at hword hobject harray
  have hplain : Outline.SettlesTo name d expression _ := .plain hword hobject harray hd.isSchema
  rw [hd.trim_self] at hplain
  exact Outline.ofSettled_eq_ok_iff.2 hplain

theorem get?_builtIn_eq_none (h : '|' ∈ expression.toList ∨ '[' ∈ expression.toList) :
    builtIn.get? expression = none := by
  have hplain : ∀ name ∈ Table.keys builtIn, '|' ∉ name.toList ∧ '[' ∉ name.toList := by decide
  cases hget : builtIn.get? expression with
  | none => rfl
  | some make =>
      have hkey := (Table.get?_isSome_iff builtIn expression).1 (by rw [hget]; rfl)
      obtain ⟨hbar, hbracket⟩ := hplain expression hkey
      rcases h with h | h
      · exact absurd h hbar
      · exact absurd h hbracket

/-- Where an expression stands alone, its common part says nothing but its name. -/
theorem build_of_reads {make : Common → DataType} (h : Reads bound expression make)
    (hd : Text.Delimited expression.toList) {name : String}
    (hname : Text.endsIn '?' name = false) :
    build bound name (.text expression) =
      .ok (make (.plain name (Declaration.ofExpression expression))) := by
  have hunmarked : Outline.IsUnmarked name (.text expression) := by
    refine ⟨hname, fun e he _ => ?_⟩
    obtain rfl := Value.text.inj he
    rw [hd.trimEnd_self]
    exact hd.unmarked
  have ho : Outline.ofDefinition name (.text expression) =
      Outline.ofSettled name (Declaration.ofExpression expression) expression := by
    rw [Outline.ofDefinition_of_text (d := Declaration.ofExpression expression) rfl rfl,
      Outline.ofText_eq, Outline.settleOptional_of_unmarked hunmarked]
  rw [build_eq, ho]
  exact h.settled name _ _ (Declaration.ofExpression_isBare expression)
    (Common.read_ofExpression name expression)

/-- A mark at the end is taken off. -/
theorem build_marked_of_reads {make : Common → DataType} (h : Reads bound expression make)
    (hd : Text.Delimited expression.toList) {name : String}
    (hname : Text.endsIn '?' name = false) :
    build bound name (.text (expression ++ "?")) =
      .ok (make (.plain name (Declaration.ofExpression expression))).madeOptional := by
  have hend : Text.endsIn '?' (expression ++ "?") = true := by simp [Text.endsIn]
  have htrim : Text.trimEnd (expression ++ "?") = expression ++ "?" := by
    rw [← String.toList_inj]
    simp [Text.trimEnd, Text.dropBlankEnd, show Text.isBlank '?' = false by decide]
  have hunmarked : Text.removeSuffix '?' (expression ++ "?") = expression := by
    rw [← String.toList_inj]
    simpa using (Text.toList_of_endsIn hend).symm
  have hsettled : Outline.settleOptional name (Declaration.ofExpression (expression ++ "?"))
      (expression ++ "?") = (name, Declaration.optionalOf expression, expression) := by
    simp only [Outline.settleOptional, Outline.isOptional, hd.isSchema_append, htrim, hend,
      hunmarked, Text.removeSuffix_of_not_endsIn hname, Bool.not_false, Bool.and_self,
      Bool.or_true, if_true, Bool.false_eq_true, if_false]
    rfl
  have ho : Outline.ofDefinition name (.text (expression ++ "?")) =
      Outline.ofSettled name (Declaration.optionalOf expression) expression := by
    rw [Outline.ofDefinition_of_text (d := Declaration.ofExpression (expression ++ "?")) rfl rfl,
      Outline.ofText_eq, hsettled]
  rw [build_eq, ho, madeOptional, h.uniform]
  exact h.settled name _ _ (Declaration.optionalOf_isBare expression)
    (Common.read_optionalOf name expression)

end DataType

/-! ## Reading what is written -/

namespace Outline

theorem ofExpression_name (n : TypeName) : ofExpression n.text = .reference n.text := by
  have hnone : Text.beforeLast? ['[', ']'] n.text.toList = none := by
    rw [← Option.isNone_iff_eq_none, ← Option.not_isSome, Bool.not_eq_true',
      ← Bool.not_eq_true, Text.beforeLast?_isSome_iff _ (by simp)]
    exact n.noBrackets
  simp [ofExpression, n.noBar, hnone]

theorem ofExpression_array {expression : String} {item before : List Char}
    (h : expression.toList = before ++ ['[', ']']) (hbar : '|' ∉ before)
    (hitem : Text.trim (String.ofList before) = String.ofList item) :
    ofExpression expression =
      .array (some (String.ofList item, .text (String.ofList item))) := by
  have hlast : Text.beforeLast? ['[', ']'] (before ++ ['[', ']']) = some before :=
    Text.beforeLast?_append _ _ (by decide)
  simp [ofExpression, h, hbar, hlast, hitem]

end Outline

namespace ItemExpression

theorem Writes.reads {e : ItemExpression} {s : String} (h : e.Writes s.toList) (bound : Bool) :
    ∃ make, DataType.Reads bound s make ∧ ∀ name d, e.Denotes bound (make (.plain name d)) := by
  generalize hcs : s.toList = cs at h
  -- on how the item is written: of an array, the item before its brackets is read on its own
  induction h generalizing s with
  | name n =>
      obtain rfl := String.toList_inj.1 hcs
      cases hget : DataType.builtIn.get? n.text with
      | some make => exact ⟨make, DataType.reads_builtIn hget, .builtIn hget⟩
      | none =>
          refine ⟨fun c => .reference c n.text bound, ⟨fun _ => rfl, fun _ _ => rfl, ?_⟩,
            .reference hget⟩
          intro name d c hd hc
          have ho := DataType.ofSettled_of_get?_eq_none hget n.delimited name d
          rw [Outline.ofExpression_name] at ho
          exact DataType.buildSettled_eq_ok ho rfl (.reference hc)
  | @array item cs blanks hitem hblanks ih =>
      have hinner : (String.ofList cs).toList = cs := String.toList_ofList
      obtain ⟨t, hbuilt, hdenotes⟩ : ∃ t,
          DataType.build bound (String.ofList cs) (.text (String.ofList cs)) = .ok t ∧
            item.Denotes bound t := by
        obtain ⟨make, hreads, hdenotes⟩ := ih hinner
        have hdelimited : Text.Delimited (String.ofList cs).toList := hinner.symm ▸ hitem.delimited
        exact ⟨_, DataType.build_of_reads hreads hdelimited hdelimited.unmarked, hdenotes _ _⟩
      have hshape := Outline.ofExpression_array hcs
        (by simp [hitem.noBar, not_mem_of_blanks hblanks]) (hitem.delimited.trim hblanks)
      have hget : DataType.builtIn.get? s = none :=
        DataType.get?_builtIn_eq_none (.inr (by simp [hcs]))
      have hwhole : Text.Delimited s.toList := hcs ▸ (Writes.array hitem hblanks).delimited
      refine ⟨fun c => .array c .unbounded (some t), ⟨fun _ => rfl, fun _ _ => rfl, ?_⟩,
        .array hdenotes⟩
      intro name d c hd hc
      have ho := DataType.ofSettled_of_get?_eq_none hget hwhole name d
      have hnested : (Outline.ofExpression s).nested.mapM
          (fun p => DataType.build bound p.1 p.2) = .ok [t] := by
        rw [hshape, Shape.nested, Option.toList_some, List.mapM_cons, hbuilt]
        rfl
      rw [hshape] at ho hnested
      exact DataType.buildSettled_eq_ok ho hnested (.array hc (DataType.arrayFacets_bare hd))

theorem Writes.builds {e : ItemExpression} {s : String} (h : e.Writes s.toList) (bound : Bool) :
    ∃ t, DataType.build bound s (.text s) = .ok t ∧ e.Denotes bound t := by
  obtain ⟨make, hreads, hdenotes⟩ := h.reads bound
  exact ⟨_, DataType.build_of_reads hreads h.delimited h.delimited.unmarked, hdenotes _ _⟩

theorem WritesAll.builds {es : List ItemExpression} {cs : List Char} (h : WritesAll es cs)
    (bound : Bool) :
    ∃ members, (Outline.splitUnion (String.ofList cs)).mapM
        (fun s => DataType.build bound s (.text s)) = .ok members ∧
      List.Forall₂ (Denotes bound) es members := by
  have hpieces := h.splitUnion
  generalize Outline.splitUnion (String.ofList cs) = pieces at hpieces
  clear h
  induction hpieces with
  | nil => exact ⟨[], rfl, .nil⟩
  | cons hwritten _ ih =>
      obtain ⟨t, hbuilt, hdenotes⟩ := hwritten.builds bound
      obtain ⟨members, hmembers, hall⟩ := ih
      refine ⟨t :: members, ?_, .cons hdenotes hall⟩
      rw [List.mapM_cons, hbuilt, hmembers]
      rfl

end ItemExpression

theorem TypeExpression.Writes.reads {e : TypeExpression} {s : String} (h : e.Writes s.toList)
    (bound : Bool) :
    ∃ make, DataType.Reads bound s make ∧ ∀ name d, e.Denotes bound (make (.plain name d)) := by
  cases e with
  | item e =>
      obtain ⟨make, hreads, hdenotes⟩ := ItemExpression.Writes.reads h bound
      exact ⟨make, hreads, fun name d => .item (hdenotes name d)⟩
  | union first second rest =>
      have hall : ItemExpression.WritesAll (first :: second :: rest) s.toList := h
      obtain ⟨members, hbuilt, hdenotes⟩ := hall.builds bound
      rw [String.ofList_toList] at hbuilt
      have hbar : '|' ∈ s.toList := by
        generalize s.toList = cs at hall
        cases hall with
        | more => simp
      have hshape : Outline.ofExpression s = .union (Outline.splitUnion s) := by
        simp [Outline.ofExpression, hbar]
      refine ⟨fun c => .union c members, ⟨fun _ => rfl, fun _ _ => rfl, ?_⟩, .union hdenotes⟩
      intro name d c hd hc
      have ho := DataType.ofSettled_of_get?_eq_none
        (DataType.get?_builtIn_eq_none (.inl hbar)) hall.delimited name d
      have hnested : (Outline.ofExpression s).nested.mapM
          (fun p => DataType.build bound p.1 p.2) = .ok members := by
        rw [hshape, Shape.nested, List.mapM_map]
        exact hbuilt
      rw [hshape] at ho hnested
      have hmembers := DataType.readMembers_bare hd members
      exact DataType.buildSettled_eq_ok ho hnested (.union hc hmembers)

namespace DataType

/-- A written expression is read as the type that it stands for, under any name without a mark. A
question mark at its end makes that type optional. -/
theorem build_written {e : TypeExpression} {expression : String} (h : e.Writes expression.toList)
    {name : String} (hname : Text.endsIn '?' name = false) (bound : Bool) :
    ∃ t, build bound name (.text expression) = .ok t ∧ e.Denotes bound t ∧ t.name = name ∧
      t.required = true ∧ build bound name (.text (expression ++ "?")) = .ok t.madeOptional := by
  obtain ⟨make, hreads, hdenotes⟩ := h.reads bound
  refine ⟨_, build_of_reads hreads h.delimited hname, hdenotes _ _, ?_, ?_,
    build_marked_of_reads hreads h.delimited hname⟩
  · rw [DataType.name, hreads.common]
    rfl
  · rw [DataType.required, hreads.common]
    rfl

def songName : TypeName :=
  ⟨"Song", by decide, by decide, by decide, by decide, by decide, by decide, by decide⟩

def nilName : TypeName :=
  ⟨"nil", by decide, by decide, by decide, by decide, by decide, by decide, by decide⟩

/-- Lists of lists of songs, or nothing. -/
def songsOrNothing : TypeExpression :=
  .union (.array (.array (.name songName))) (.name nilName) []

theorem songsOrNothing_writes : songsOrNothing.Writes "Song []\t[] |  nil".toList := by
  have hsong : ItemExpression.Writes (.name songName) "Song".toList := .name songName
  have hlists := (hsong.array (show Text.Blanks [' '] by simp [Text.Blanks]; decide)).array
    (show Text.Blanks ['\t'] by simp [Text.Blanks]; decide)
  exact .more hlists (show Text.Blanks [' '] by simp [Text.Blanks]; decide)
    (show Text.Blanks [' ', ' '] by simp [Text.Blanks]; decide) (.last (.name nilName))

/-- Blanks around a bar and before brackets do not count. -/
theorem build_written_songs :
    Text.endsIn '?' "songs" = false ∧
      ∃ t, build true "songs" (.text "Song []\t[] |  nil") = .ok t ∧
        songsOrNothing.Denotes true t ∧ t.name = "songs" ∧ t.required = true ∧
          build true "songs" (.text "Song []\t[] |  nil?") = .ok t.madeOptional :=
  ⟨by decide, build_written songsOrNothing_writes (by decide) true⟩

end DataType

end Raml
