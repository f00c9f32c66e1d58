import Raml.Proofs.Declaration.WrittenTypes

/-! # Types written back

A type that is read from an expression is written out again as an expression. What is written is
part of what was read, apart from blanks and question marks. All of it comes back exactly if, in
every stretch between bars that is no schema, brackets stand at the end: a stretch is read up to its
last brackets, and what follows them is lost.
-/

namespace Raml

/-! ## Characters that count -/

namespace Text

/-- Whether a character of an expression counts: it is neither blank nor a question mark. -/
def isSolid (c : Char) : Bool := !isBlank c && c != '?'

def solid (cs : List Char) : List Char := cs.filter isSolid

theorem solid_append (cs ds : List Char) : solid (cs ++ ds) = solid cs ++ solid ds :=
  List.filter_append ..

theorem not_isSolid_of_isBlank {c : Char} (h : isBlank c = true) : isSolid c = false := by
  simp [isSolid, h]

theorem solid_eq_nil_iff {cs : List Char} : solid cs = [] ↔ ∀ c ∈ cs, isSolid c = false := by
  simp [solid, List.filter_eq_nil_iff]

/-- Whether characters are kept of others in their order, and all of them under a condition
exactly. -/
structure Keeps (kept whole : List Char) (all : Prop) : Prop where
  sublist : kept.Sublist whole
  eq_iff : kept = whole ↔ all

theorem Keeps.of_eq {kept whole : List Char} {all : Prop} (h : kept = whole) (hall : all) :
    Keeps kept whole all :=
  ⟨h ▸ .refl _, iff_of_true h hall⟩

theorem Keeps.congr {kept whole : List Char} {all all' : Prop} (h : Keeps kept whole all)
    (hall : all ↔ all') : Keeps kept whole all' :=
  ⟨h.sublist, h.eq_iff.trans hall⟩

/-- Of characters that none is kept of, all are kept if there are none. -/
theorem Keeps.none (whole : List Char) : Keeps [] whole (whole = []) :=
  ⟨List.nil_sublist whole, eq_comm⟩

theorem Keeps.append {kept whole kept' whole' : List Char} {all all' : Prop}
    (h : Keeps kept whole all) (h' : Keeps kept' whole' all') :
    Keeps (kept ++ kept') (whole ++ whole') (all ∧ all') where
  sublist := h.sublist.append h'.sublist
  eq_iff := by
    constructor
    · intro heq
      have hlengths := congrArg List.length heq
      rw [List.length_append, List.length_append] at hlengths
      have hle := h.sublist.length_le
      have hle' := h'.sublist.length_le
      have hfirst := h.sublist.eq_of_length (by omega)
      have hsecond := h'.sublist.eq_of_length (by omega)
      exact ⟨h.eq_iff.1 hfirst, h'.eq_iff.1 hsecond⟩
    · intro hall
      rw [h.eq_iff.2 hall.1, h'.eq_iff.2 hall.2]

theorem Keeps.intercalate {ι κ : Type} {f : ι → List Char} {g : κ → List Char} {P : κ → Prop}
    {is : List ι} {ks : List κ} (h : List.Forall₂ (fun i k => Keeps (f i) (g k) (P k)) is ks)
    (sep : List Char) :
    Keeps (sep.intercalate (is.map f)) (sep.intercalate (ks.map g)) (∀ k ∈ ks, P k) := by
  induction h with
  | nil => exact .of_eq rfl (by simp)
  | @cons i k is ks hfirst hrest ih =>
      cases hrest with
      | nil => simpa using hfirst
      | @cons i' k' is ks hsecond hrest =>
          simp only [List.map_cons, List.intercalate_cons_cons] at ih ⊢
          have hsep : Keeps sep sep True := .of_eq rfl trivial
          exact ((hfirst.append hsep).append ih).congr (by simp)

/-! ## Padding -/

/-- Whether characters are others with blanks in front and characters that do not count behind. -/
def Padded (cs ds : List Char) : Prop :=
  ∃ before after, Blanks before ∧ (∀ c ∈ after, isSolid c = false) ∧ ds = before ++ cs ++ after

theorem Padded.trans {cs ds es : List Char} (h : Padded cs ds) (h' : Padded ds es) :
    Padded cs es := by
  obtain ⟨before, after, hbefore, hafter, rfl⟩ := h
  obtain ⟨before', after', hbefore', hafter', rfl⟩ := h'
  refine ⟨before' ++ before, after ++ after', ?_, ?_, by simp⟩
  · exact List.forall_mem_append.2 ⟨hbefore', hbefore⟩
  · exact List.forall_mem_append.2 ⟨hafter, hafter'⟩

theorem Padded.solid_eq {cs ds : List Char} (h : Padded cs ds) : solid ds = solid cs := by
  obtain ⟨before, after, hbefore, hafter, rfl⟩ := h
  have hnone : solid before = [] :=
    solid_eq_nil_iff.2 fun c hc => not_isSolid_of_isBlank (hbefore c hc)
  rw [solid_append, solid_append, hnone, solid_eq_nil_iff.2 hafter, List.nil_append,
    List.append_nil]

theorem Padded.sublist {cs ds : List Char} (h : Padded cs ds) : cs.Sublist ds := by
  obtain ⟨before, after, -, -, rfl⟩ := h
  exact (List.sublist_append_right before cs).trans (List.sublist_append_left _ after)

theorem padded_trim (s : String) : Padded (trim s).toList s.toList := by
  obtain ⟨before, hbefore, hs⟩ := exists_dropBlank s.toList
  obtain ⟨after, hafter, hcs⟩ := exists_dropBlankEnd (dropBlank s.toList)
  refine ⟨before, after, hbefore, fun c hc => not_isSolid_of_isBlank (hafter c hc), ?_⟩
  rw [trim, String.toList_ofList, List.append_assoc, ← hcs]
  exact hs

theorem padded_unmark (s : String) : Padded (Outline.unmark s).toList s.toList := by
  cases hmark : endsIn '?' (trimEnd s) with
  | true =>
      obtain ⟨blanks, hblanks, hs⟩ := Outline.toList_trimEnd_of_marked hmark
      refine ⟨[], '?' :: blanks, by simp [Blanks], ?_, by simpa using hs⟩
      intro c hc
      cases List.mem_cons.1 hc with
      | inl hmark => exact hmark ▸ by decide
      | inr hblank => exact not_isSolid_of_isBlank (hblanks c hblank)
  | false =>
      obtain ⟨blanks, hblanks, hs⟩ := exists_dropBlankEnd s.toList
      refine ⟨[], blanks, by simp [Blanks], fun c hc => not_isSolid_of_isBlank (hblanks c hc), ?_⟩
      rw [Outline.unmark, removeSuffix_of_not_endsIn hmark, trimEnd, String.toList_ofList]
      simpa using hs

theorem isSchema_ofList (cs : List Char) :
    Outline.isSchema (String.ofList cs) =
      (cs.find? (!isBlank ·)).any fun c => c = '<' || c = '\x7b' := by
  rw [← head?_dropBlank, Outline.isSchema, String.toList_ofList]
  cases dropBlank cs <;> rfl

theorem Padded.isSchema_eq {cs ds : List Char} (h : Padded cs ds) :
    Outline.isSchema (String.ofList ds) = Outline.isSchema (String.ofList cs) := by
  obtain ⟨before, after, hbefore, hafter, rfl⟩ := h
  rw [isSchema_ofList, isSchema_ofList, List.append_assoc, find?_blanks_append hbefore,
    List.find?_append]
  cases cs.find? (!isBlank ·) with
  | some c => rfl
  | none =>
      rw [Option.none_or]
      cases hfirst : after.find? (!isBlank ·) with
      | none => rfl
      | some c =>
          have hmark := hafter c (List.mem_of_find?_eq_some hfirst)
          have hblank := List.find?_some hfirst
          have hc : c = '?' := by simpa [isSolid, hblank] using hmark
          subst hc
          rfl

theorem isSchema_of_append {cs ds : List Char}
    (h : Outline.isSchema (String.ofList (cs ++ ds)) = false) :
    Outline.isSchema (String.ofList cs) = false := by
  rw [isSchema_ofList] at h ⊢
  rw [List.find?_append] at h
  cases hfirst : cs.find? (!isBlank ·) with
  | none => rfl
  | some c =>
      rw [hfirst] at h
      exact h

/-- Characters behind lengthen the last stretch. -/
theorem splitChars_append_behind {sep : Char} {after : List Char} (h : sep ∉ after)
    (cs : List Char) :
    List.Forall₂ (fun piece piece' => piece' = piece ∨ piece' = piece ++ after)
      (splitChars sep cs) (splitChars sep (cs ++ after)) := by
  induction cs with
  | nil =>
      rw [List.nil_append, splitChars_single h]
      exact .cons (.inr rfl) .nil
  | cons c rest ih =>
      rw [List.cons_append, splitChars, splitChars]
      generalize splitChars sep rest = pieces at ih ⊢
      generalize splitChars sep (rest ++ after) = pieces' at ih ⊢
      split
      · exact .cons (.inl rfl) ih
      · cases ih with
        | nil => exact .cons (.inl rfl) .nil
        | cons hfirst hrest =>
            refine .cons ?_ hrest
            cases hfirst with
            | inl heq => exact .inl (heq ▸ rfl)
            | inr heq => exact .inr (heq ▸ rfl)

theorem splitChars_padded {sep : Char} (hsolid : isSolid sep = true) {cs ds : List Char}
    (h : Padded cs ds) : List.Forall₂ Padded (splitChars sep cs) (splitChars sep ds) := by
  obtain ⟨before, after, hbefore, hafter, rfl⟩ := h
  have hnotBefore : sep ∉ before := fun hmem => by
    have hblank := not_isSolid_of_isBlank (hbefore sep hmem)
    rw [hsolid] at hblank
    cases hblank
  have hnotAfter : sep ∉ after := fun hmem => by
    have hnone := hafter sep hmem
    rw [hsolid] at hnone
    cases hnone
  have hbehind := splitChars_append_behind hnotAfter (before ++ cs)
  obtain ⟨piece, pieces, hcs, hfront⟩ := splitChars_append hnotBefore cs
  have hpad : ∀ (front : List Char) {piece piece' : List Char}, Blanks front →
      (piece' = front ++ piece ∨ piece' = front ++ piece ++ after) → Padded piece piece' := by
    intro front piece piece' hfront heq
    cases heq with
    | inl heq => exact ⟨front, [], hfront, by simp, by simpa using heq⟩
    | inr heq => exact ⟨front, after, hfront, hafter, heq⟩
  rw [hfront] at hbehind
  rw [hcs]
  generalize splitChars sep (before ++ cs ++ after) = pieces' at hbehind ⊢
  cases hbehind with
  | cons hfirst hrest =>
      refine .cons (hpad before hbefore hfirst) (hrest.imp fun piece piece' heq => ?_)
      exact hpad [] (by simp [Blanks]) heq

theorem intercalate_splitChars (sep : Char) (cs : List Char) :
    [sep].intercalate (splitChars sep cs) = cs := by
  induction cs with
  | nil => rfl
  | cons c rest ih =>
      obtain ⟨hc, hs⟩ | ⟨-, piece, pieces, hrest, hs⟩ := splitChars_cons_cases sep c rest
      · obtain ⟨piece, pieces, hrest⟩ := List.exists_cons_of_ne_nil (splitChars_ne_nil sep rest)
        rw [hs, hrest, List.intercalate_cons_cons, ← hrest, ih, hc]
        rfl
      · rw [hrest] at ih
        rw [hs]
        cases pieces with
        | nil => simpa using ih
        | cons next pieces =>
            rw [List.intercalate_cons_cons] at ih ⊢
            simpa using ih

/-! ## Brackets -/

/-- Whether nothing that counts stands between or behind the brackets of some characters, so that
they are an item without brackets and then brackets only. -/
inductive BracketsLast : List Char → Prop
  | plain {cs : List Char} (h : ¬ ['[', ']'] <:+: cs) : BracketsLast cs
  | brackets {item gap : List Char} (h : BracketsLast item) (hgap : ∀ c ∈ gap, isSolid c = false) :
      BracketsLast (item ++ '[' :: ']' :: gap)

theorem beforeLast?_brackets_append {after : List Char} (h : ']' ∉ after) (cs : List Char) :
    beforeLast? ['[', ']'] (cs ++ after) = beforeLast? ['[', ']'] cs := by
  induction cs with
  | nil =>
      have hnone : beforeLast? ['[', ']'] after = none := by
        rw [← Option.not_isSome_iff_eq_none, beforeLast?_isSome_iff _ (by simp)]
        exact fun hin => h (hin.subset (by simp))
      rw [List.nil_append, hnone]
      rfl
  | cons c rest ih =>
      have hprefix : List.isPrefixOf ['[', ']'] (c :: (rest ++ after)) =
          List.isPrefixOf ['[', ']'] (c :: rest) := by
        cases rest with
        | cons d rest => simp [List.isPrefixOf]
        | nil =>
            cases after with
            | nil => rfl
            | cons d after =>
                have hne : ']' ≠ d := fun heq => h (heq ▸ List.mem_cons_self)
                simp [List.isPrefixOf, hne]
      rw [List.cons_append, beforeLast?, beforeLast?, ih, hprefix]

theorem beforeLast?_append_brackets {before : List Char} (h : '[' ∉ before) (cs : List Char) :
    beforeLast? ['[', ']'] (before ++ cs) = (beforeLast? ['[', ']'] cs).map (before ++ ·) := by
  induction before with
  | nil => simp
  | cons c rest ih =>
      have hne : '[' ≠ c := fun heq => h (heq ▸ List.mem_cons_self)
      rw [List.cons_append, beforeLast?, ih (List.not_mem_of_not_mem_cons h)]
      cases beforeLast? ['[', ']'] cs with
      | some item => rfl
      | none => simp [List.isPrefixOf, hne]

theorem exists_gap_of_beforeLast? {cs item : List Char}
    (h : beforeLast? ['[', ']'] cs = some item) : ∃ gap, cs = item ++ '[' :: ']' :: gap := by
  induction cs generalizing item with
  | nil => cases h
  | cons c rest ih =>
      rw [beforeLast?] at h
      cases hrest : beforeLast? ['[', ']'] rest with
      | some found =>
          rw [hrest] at h
          obtain rfl := Option.some.inj h
          obtain ⟨gap, hgap⟩ := ih hrest
          exact ⟨gap, by rw [hgap, List.cons_append]⟩
      | none =>
          rw [hrest] at h
          cases rest with
          | nil => simp [List.isPrefixOf] at h
          | cons d rest =>
              simp [List.isPrefixOf] at h
              obtain ⟨⟨rfl, rfl⟩, rfl⟩ := h
              exact ⟨rest, rfl⟩

theorem bracketsLast_of_none {cs : List Char} (h : beforeLast? ['[', ']'] cs = none) :
    BracketsLast cs := by
  refine .plain fun hin => ?_
  have hsome := (beforeLast?_isSome_iff ['[', ']'] (by simp) cs).2 hin
  rw [h] at hsome
  cases hsome

/-- The last brackets are the ones that are looked at first. -/
theorem bracketsLast_iff {item gap : List Char}
    (h : beforeLast? ['[', ']'] (item ++ '[' :: ']' :: gap) = some item) :
    BracketsLast (item ++ '[' :: ']' :: gap) ↔
      BracketsLast item ∧ ∀ c ∈ gap, isSolid c = false := by
  constructor
  · intro hlast
    generalize hcs : item ++ '[' :: ']' :: gap = cs at h hlast
    cases hlast with
    | plain hplain =>
        have hin := (beforeLast?_isSome_iff ['[', ']'] (by simp) cs).1 (by rw [h]; rfl)
        exact absurd hin hplain
    | @brackets item' gap' hitem hgap =>
        have hnot : ']' ∉ gap' := fun hmem => absurd (hgap _ hmem) (by decide)
        have hsplit : item' ++ '[' :: ']' :: gap' = item' ++ ['[', ']'] ++ gap' := by simp
        rw [hsplit, beforeLast?_brackets_append hnot, beforeLast?_append _ _ (by decide)] at h
        obtain rfl := Option.some.inj h
        have hgaps : gap = gap' := by simpa using hcs
        exact ⟨hitem, hgaps ▸ hgap⟩
  · intro hboth
    exact .brackets hboth.1 hboth.2

theorem bracketsLast_padded {cs ds : List Char} (h : Padded cs ds) :
    BracketsLast ds ↔ BracketsLast cs := by
  obtain ⟨before, after, hbefore, hafter, rfl⟩ := h
  have hnotBefore : '[' ∉ before := fun hmem => absurd (hbefore _ hmem) (by decide)
  -- by the length, as brackets are taken off from the end: the padding behind goes with the first
  generalize hn : cs.length = n
  induction n using Nat.strongRecOn generalizing cs after with
  | ind n ih =>
      have hnotAfter : ']' ∉ after := fun hmem => absurd (hafter _ hmem) (by decide)
      have hlast : beforeLast? ['[', ']'] (before ++ cs ++ after) =
          (beforeLast? ['[', ']'] cs).map (before ++ ·) := by
        rw [beforeLast?_brackets_append hnotAfter, beforeLast?_append_brackets hnotBefore]
      cases hcs : beforeLast? ['[', ']'] cs with
      | none =>
          rw [hcs] at hlast
          exact iff_of_true (bracketsLast_of_none hlast) (bracketsLast_of_none hcs)
      | some item =>
          obtain ⟨gap, rfl⟩ := exists_gap_of_beforeLast? hcs
          have hwhole : before ++ (item ++ '[' :: ']' :: gap) ++ after =
              before ++ item ++ '[' :: ']' :: (gap ++ after) := by simp
          rw [hcs, hwhole] at hlast
          have hshorter : item.length < n := by
            simp only [List.length_append, List.length_cons] at hn
            omega
          have hitem : BracketsLast (before ++ item ++ []) ↔ BracketsLast item :=
            ih item.length hshorter [] (by simp) rfl
          rw [List.append_nil] at hitem
          rw [hwhole, bracketsLast_iff hlast, bracketsLast_iff hcs, hitem,
            List.forall_mem_append]
          simp only [and_iff_left hafter]

end Text

/-! ## Writing types -/

namespace DataType

def declaredText (d : Mapping) : String :=
  match d.field "type" with
  | .text expression => expression
  | _ => ""

/-- How a scalar type is written: the keyword of a built-in one, else what is declared. -/
def writtenScalar (c : Common) : Scalar → String
  | .any | .json _ | .xml _ => declaredText c.declaration
  | s => s.kind.text

mutual

def written : DataType → String
  | .scalar c s => writtenScalar c s
  | .object _ _ _ => "object"
  | .array _ _ items => writtenItems items
  | .union _ members => "|".intercalate (writtenMembers members)
  | .reference _ target _ => target
termination_by structural t => t

def writtenItems : Option DataType → String
  | none => "array"
  | some t => written t ++ "[]"
termination_by structural o => o

def writtenMembers : List DataType → List String
  | [] => []
  | t :: rest => written t :: writtenMembers rest
termination_by structural ts => ts

end

theorem writtenMembers_eq (ts : List DataType) : writtenMembers ts = ts.map written := by
  induction ts with
  | nil => rfl
  | cons t rest ih => rw [writtenMembers, ih, List.map_cons]

variable {bound : Bool} {name expression : String} {d : Mapping} {t : DataType}

/-! ## Reading one expression -/

/-- An expression alone is read as what is left of it without its marks. -/
theorem build_text (h : build bound name (.text expression) = .ok t) :
    ∃ name' d e, buildSettled bound name' d e = .ok t ∧ d.IsBare ∧
      d.field? "type" = some (.text e) ∧
      (Outline.isSchema expression = false →
        Outline.isSchema e = false ∧ Text.Padded (Text.trim e).toList expression.toList) ∧
      (Outline.isSchema expression = true → e = expression) := by
  have ho : Outline.ofDefinition name (.text expression) = _ :=
    Outline.ofDefinition_of_text (d := Declaration.ofExpression expression) rfl rfl name
  rw [build_eq, ho, Outline.ofText_eq] at h
  refine ⟨_, _, _, h, ?_, Outline.settleOptional_type rfl, fun hs => ?_, ?_⟩
  · intro s htype hrequired
    rw [Outline.settleOptional_field? _ _ _ htype hrequired]
    exact Declaration.ofExpression_isBare expression s htype hrequired
  · have hword := Outline.trim_settleOptional name (Declaration.ofExpression expression) hs
    refine ⟨?_, ?_⟩
    · rw [Outline.isSchema_eq_false_iff, hword, ← Outline.isSchema_eq_false_iff]
      exact Outline.isSchema_unmark hs
    · rw [hword]
      exact (Text.padded_trim _).trans (Text.padded_unmark expression)
  · exact Outline.settleOptional_of_isSchema name _

theorem declaredText_eq (h : d.field? "type" = some (.text expression)) :
    declaredText d = expression := by
  rw [declaredText, Mapping.field_of_field? h]

theorem text_of_ofText? {word : String} {scalar : ScalarWord}
    (h : ScalarWord.ofText? word = some scalar) (hany : scalar ≠ .any) :
    (plainScalar scalar).kind.text = word := by
  unfold ScalarWord.ofText? at h
  split at h
  all_goals first
    | cases h
      first
        | rfl
        | exact absurd rfl hany
    | cases h

theorem writtenScalar_plain {c : Common} {scalar : ScalarWord} (hany : scalar ≠ .any) :
    writtenScalar c (plainScalar scalar) = (plainScalar scalar).kind.text := by
  cases scalar with
  | any => exact absurd rfl hany
  | _ => rfl

theorem solid_writtenScalar {scalar : ScalarWord} {c : Common} (hc : c.declaration = d)
    (htype : d.field? "type" = some (.text expression))
    (h : ScalarWord.ofText? (Text.trim expression) = some scalar) :
    Text.solid (writtenScalar c (plainScalar scalar)).toList = Text.solid expression.toList := by
  by_cases hany : scalar = .any
  · subst hany
    rw [plainScalar, writtenScalar, hc, declaredText_eq htype]
  · rw [writtenScalar_plain hany, text_of_ofText? h hany]
    exact (Text.padded_trim expression).solid_eq.symm

theorem buildSettled_settlesTo (h : buildSettled bound name d expression = .ok t) :
    ∃ name' d' shape nested, Outline.SettlesTo name d expression ⟨name', d', shape⟩ ∧
      shape.nested.mapM (fun p => build bound p.1 p.2) = .ok nested ∧
      IsAssembly bound name' d' nested shape t := by
  rw [buildSettled, Except.bind_eq_ok_iff] at h
  obtain ⟨o, ho, h⟩ := h
  rw [Except.bind_eq_ok_iff] at h
  obtain ⟨nested, hnested, h⟩ := h
  exact ⟨_, _, _, nested, Outline.ofSettled_settlesTo ho, hnested, assemble_eq_ok_iff.1 h⟩

theorem solid_written_of_plain (h : buildSettled bound name d expression = .ok t) (hd : d.IsBare)
    (htype : d.field? "type" = some (.text expression))
    (hplain : Outline.isSchema expression = true ∨ '|' ∉ (Text.trim expression).toList ∧
      Text.beforeLast? ['[', ']'] (Text.trim expression).toList = none) :
    Text.solid t.written.toList = Text.solid expression.toList := by
  have htrim := (Text.padded_trim expression).solid_eq
  have hword : ∀ {word : String}, Text.trim expression = word →
      Text.solid word.toList = Text.solid expression.toList := by
    intro word heq
    rw [htrim, heq]
  obtain ⟨_, _, _, nested, hsettles, hnested, hassembly⟩ := buildSettled_settlesTo h
  cases hsettles with
  | scalar hscalar =>
      cases hassembly with
      | scalar hc hs =>
          rw [readScalar_bare hd] at hs
          obtain rfl := Checked.ok.inj hs
          exact solid_writtenScalar (Common.read_eq_ok hc).2.2 htype hscalar
  | object hobject =>
      cases hassembly with
      | object => exact hword hobject
  | array harray =>
      -- a bare declaration has no items, so this array is the word itself
      have hitems : Outline.readItems name d = none := by
        simp [Outline.readItems, Mapping.field, hd _]
      rw [hitems] at hnested hassembly
      obtain rfl := Except.ok.inj hnested
      cases hassembly with
      | array => exact hword harray
  | xml =>
      cases hassembly with
      | xml hc => rw [written, writtenScalar, (Common.read_eq_ok hc).2.2, declaredText_eq htype]
  | json =>
      cases hassembly with
      | json hc => rw [written, writtenScalar, (Common.read_eq_ok hc).2.2, declaredText_eq htype]
  | plain _ _ _ hs =>
      rw [hs] at hplain
      obtain ⟨hbar, hbrackets⟩ := hplain.resolve_left (by simp)
      have hshape : Outline.ofExpression (Text.trim expression) =
          .reference (Text.trim expression) := by
        simp [Outline.ofExpression, hbar, hbrackets]
      rw [hshape] at hassembly
      cases hassembly with
      | reference hc => exact htrim.symm

/-- A settled expression with a bar or brackets is no built-in word. -/
theorem buildSettled_of_isSpecial (h : buildSettled bound name d expression = .ok t)
    (hs : Outline.isSchema expression = false)
    (hspecial : Outline.IsSpecial (Text.trim expression)) :
    ∃ nested, (Outline.ofExpression (Text.trim expression)).nested.mapM
        (fun p => build bound p.1 p.2) = .ok nested ∧
      IsAssembly bound name d nested (Outline.ofExpression (Text.trim expression)) t := by
  obtain ⟨_, _, _, nested, hsettles, hnested, hassembly⟩ := buildSettled_settlesTo h
  obtain ⟨hxml, hjson⟩ := (Outline.isSchema_eq_false_iff expression).1 hs
  cases hsettles with
  | plain => exact ⟨nested, hnested, hassembly⟩
  | scalar hword => cases hspecial.ofText?_eq_none.symm.trans hword
  | object hword => exact absurd hword (hspecial.ne (by decide))
  | array hword => exact absurd hword (hspecial.ne (by decide))
  | xml hstart => cases hxml.symm.trans hstart
  | json hstart => cases hjson.symm.trans hstart

theorem written_of_isSchema (hs : Outline.isSchema expression = true)
    (h : build bound name (.text expression) = .ok t) :
    Text.solid t.written.toList = Text.solid expression.toList := by
  obtain ⟨name', d, e, hbuilt, hd, htype, -, he⟩ := build_text h
  obtain rfl := he hs
  exact solid_written_of_plain hbuilt hd htype (.inl hs)

/-! ## Items -/

theorem array_of_brackets {item : List Char} (h : buildSettled bound name d expression = .ok t)
    (hs : Outline.isSchema expression = false) (hbar : '|' ∉ (Text.trim expression).toList)
    (hitem : Text.beforeLast? ['[', ']'] (Text.trim expression).toList = some item) :
    ∃ t', t.written = t'.written ++ "[]" ∧
      build bound (Text.trim (String.ofList item)) (.text (Text.trim (String.ofList item))) =
        .ok t' := by
  obtain ⟨gap, hgap⟩ := Text.exists_gap_of_beforeLast? hitem
  have hspecial : Outline.IsSpecial (Text.trim expression) := .inr (.inl (by simp [hgap]))
  obtain ⟨nested, hnested, hassembly⟩ := buildSettled_of_isSpecial h hs hspecial
  have hshape : Outline.ofExpression (Text.trim expression) =
      .array (some (Text.trim (String.ofList item), .text (Text.trim (String.ofList item)))) := by
    simp [Outline.ofExpression, hbar, hitem]
  rw [hshape] at hnested hassembly
  rw [Shape.nested, Option.toList_some, List.mapM_cons, Except.bind_eq_ok_iff] at hnested
  obtain ⟨t', hbuilt, hnested⟩ := hnested
  obtain rfl := Except.ok.inj hnested
  cases hassembly with
  | array => exact ⟨t', rfl, hbuilt⟩

/-- What stands before brackets is shorter, has no bars and is no schema. -/
structure IsItemOf (item cs : List Char) : Prop where
  shorter : item.length < cs.length
  noBar : '|' ∉ item
  noSchema : Outline.isSchema (String.ofList item) = false

theorem isItemOf_trim {word cs item : List Char} (hpadded : Text.Padded word cs)
    (hbar : '|' ∉ cs) (hs : Outline.isSchema (String.ofList cs) = false)
    (hitem : Text.beforeLast? ['[', ']'] word = some item) :
    IsItemOf (Text.trim (String.ofList item)).toList cs := by
  obtain ⟨gap, hgap⟩ := Text.exists_gap_of_beforeLast? hitem
  have htrim := Text.padded_trim (String.ofList item)
  rw [String.toList_ofList] at htrim
  constructor
  · have hinner := htrim.sublist.length_le
    have houter := hpadded.sublist.length_le
    rw [hgap, List.length_append, List.length_cons] at houter
    omega
  · intro hmem
    have hword : '|' ∈ word := hgap ▸ List.mem_append_left _ (htrim.sublist.subset hmem)
    exact hbar (hpadded.sublist.subset hword)
  · rw [hpadded.isSchema_eq, hgap] at hs
    have hfirst := Text.isSchema_of_append hs
    rwa [htrim.isSchema_eq] at hfirst

/-- What an array keeps of its expression: what its items keep of theirs, but nothing of what stands
behind the brackets. -/
theorem keeps_array {kept item gap : List Char}
    (h : Text.Keeps (Text.solid kept) (Text.solid item) (Text.BracketsLast item))
    (hitem : Text.beforeLast? ['[', ']'] (item ++ '[' :: ']' :: gap) = some item) :
    Text.Keeps (Text.solid (kept ++ ['[', ']'])) (Text.solid (item ++ '[' :: ']' :: gap))
      (Text.BracketsLast (item ++ '[' :: ']' :: gap)) := by
  have hbrackets : Text.Keeps ['[', ']'] ['[', ']'] True := .of_eq rfl trivial
  have hall := (h.append hbrackets).append (.none (Text.solid gap))
  have hcondition : (Text.BracketsLast item ∧ True) ∧ Text.solid gap = [] ↔
      Text.BracketsLast (item ++ '[' :: ']' :: gap) := by
    rw [and_true, Text.bracketsLast_iff hitem, Text.solid_eq_nil_iff]
  have hsplit : Text.solid (item ++ '[' :: ']' :: gap) =
      Text.solid item ++ ['[', ']'] ++ Text.solid gap := by
    rw [Text.solid_append, List.append_assoc]
    rfl
  have hkept := hall.congr hcondition
  rw [List.append_nil] at hkept
  rwa [hsplit, Text.solid_append]

/-- A stretch without bars comes back whole exactly if its brackets stand at its end. -/
theorem keeps_stretch (hbar : '|' ∉ expression.toList) (hs : Outline.isSchema expression = false)
    (h : build bound name (.text expression) = .ok t) :
    Text.Keeps (Text.solid t.written.toList) (Text.solid expression.toList)
      (Text.BracketsLast expression.toList) := by
  -- by the length: what stands before the last brackets is an expression by itself
  generalize hn : expression.toList.length = n
  induction n using Nat.strongRecOn generalizing expression name t with
  | ind n ih =>
      obtain ⟨name', d, e, hbuilt, hd, htype, hkept, -⟩ := build_text h
      obtain ⟨hnoSchema, hpadded⟩ := hkept hs
      have hbarWord : '|' ∉ (Text.trim e).toList := fun hmem => hbar (hpadded.sublist.subset hmem)
      rw [hpadded.solid_eq]
      refine Text.Keeps.congr ?_ (Text.bracketsLast_padded hpadded).symm
      cases hitem : Text.beforeLast? ['[', ']'] (Text.trim e).toList with
      | none =>
          have hwritten := solid_written_of_plain hbuilt hd htype (.inr ⟨hbarWord, hitem⟩)
          rw [(Text.padded_trim e).solid_eq] at hwritten
          exact .of_eq hwritten (Text.bracketsLast_of_none hitem)
      | some item =>
          obtain ⟨t', hwritten, hbuilt'⟩ := array_of_brackets hbuilt hnoSchema hbarWord hitem
          have hs' : Outline.isSchema (String.ofList expression.toList) = false := by
            rw [String.ofList_toList]
            exact hs
          have hitemOf := isItemOf_trim hpadded hbar hs' hitem
          have hnoSchemaItem := hitemOf.noSchema
          rw [String.ofList_toList] at hnoSchemaItem
          have hkeeps := ih _ (hn ▸ hitemOf.shorter) hitemOf.noBar hnoSchemaItem hbuilt' rfl
          have htrim := Text.padded_trim (String.ofList item)
          rw [String.toList_ofList] at htrim
          rw [← htrim.solid_eq, ← Text.bracketsLast_padded htrim] at hkeeps
          obtain ⟨gap, hgap⟩ := Text.exists_gap_of_beforeLast? hitem
          rw [hgap] at hitem ⊢
          rw [hwritten, String.toList_append]
          exact keeps_array hkeeps hitem

/-! ## Unions -/

theorem solid_intercalate (pieces : List (List Char)) :
    Text.solid (['|'].intercalate pieces) = ['|'].intercalate (pieces.map Text.solid) := by
  have hbar : Text.solid ['|'] = ['|'] := by decide
  induction pieces with
  | nil => rfl
  | cons piece rest ih =>
      cases rest with
      | nil => simp only [List.intercalate_singleton, List.map_cons, List.map_nil]
      | cons next rest =>
          rw [List.map_cons] at ih
          rw [List.intercalate_cons_cons, List.map_cons, List.map_cons,
            List.intercalate_cons_cons, ← ih, Text.solid_append, Text.solid_append, hbar]

/-- Whether nothing of a stretch between bars is lost: it is a schema or its brackets stand at its
end. -/
def ComesBack (piece : List Char) : Prop :=
  Outline.isSchema (String.ofList piece) = true ∨ Text.BracketsLast piece

theorem comesBack_padded {cs ds : List Char} (h : Text.Padded cs ds) :
    ComesBack ds ↔ ComesBack cs := by
  rw [ComesBack, ComesBack, h.isSchema_eq, Text.bracketsLast_padded h]

theorem keeps_piece {piece : List Char} (hbar : '|' ∉ piece)
    (h : build bound name (.text (String.ofList piece)) = .ok t) :
    Text.Keeps (Text.solid t.written.toList) (Text.solid piece) (ComesBack piece) := by
  cases hs : Outline.isSchema (String.ofList piece) with
  | true =>
      have hwritten := written_of_isSchema hs h
      rw [String.toList_ofList] at hwritten
      exact .of_eq hwritten (.inl hs)
  | false =>
      have hkeeps := keeps_stretch (by rwa [String.toList_ofList]) hs h
      rw [String.toList_ofList] at hkeeps
      exact hkeeps.congr (by simp [ComesBack, hs])

def BuiltFromPiece (bound : Bool) (piece : List Char) (t : DataType) : Prop :=
  '|' ∉ piece ∧ ∃ expression name, Text.Padded expression piece ∧
    build bound name (.text (String.ofList expression)) = .ok t

theorem builtFromPiece_of_trim {piece : List Char} (hbar : '|' ∉ piece)
    (h : build bound name (.text (Text.trim (String.ofList piece))) = .ok t) :
    BuiltFromPiece bound piece t := by
  have htrim := Text.padded_trim (String.ofList piece)
  rw [String.toList_ofList] at htrim
  refine ⟨hbar, _, name, htrim, ?_⟩
  rwa [String.ofList_toList]

theorem BuiltFromPiece.keeps {piece : List Char} (h : BuiltFromPiece bound piece t) :
    Text.Keeps (Text.solid t.written.toList) (Text.solid piece) (ComesBack piece) := by
  obtain ⟨hbar, expression, name, hpadded, hbuilt⟩ := h
  have hbar' : '|' ∉ expression := fun hmem => hbar (hpadded.sublist.subset hmem)
  rw [hpadded.solid_eq]
  exact (keeps_piece hbar' hbuilt).congr (comesBack_padded hpadded).symm

theorem keeps_pieces {pieces pieces' : List (List Char)} {members : List DataType}
    (hpadded : List.Forall₂ Text.Padded pieces pieces')
    (hbuilt : List.Forall₂ (BuiltFromPiece bound) pieces members) :
    List.Forall₂ (fun member piece =>
      Text.Keeps (Text.solid member.written.toList) (Text.solid piece) (ComesBack piece))
      members pieces' := by
  induction hpadded generalizing members with
  | nil =>
      cases hbuilt with
      | nil => exact .nil
  | cons hpiece _ ih =>
      cases hbuilt with
      | cons hfirst hrest =>
          refine .cons ?_ (ih hrest)
          rw [hpiece.solid_eq]
          exact hfirst.keeps.congr (comesBack_padded hpiece).symm

theorem union_of_bar (h : buildSettled bound name d expression = .ok t) (hd : d.IsBare)
    (hs : Outline.isSchema expression = false) (hbar : '|' ∈ (Text.trim expression).toList) :
    ∃ members, t.written = "|".intercalate (members.map written) ∧
      List.Forall₂ (BuiltFromPiece bound) (Text.splitChars '|' (Text.trim expression).toList)
        members := by
  have hspecial : Outline.IsSpecial (Text.trim expression) := .inl hbar
  obtain ⟨members, hnested, hassembly⟩ := buildSettled_of_isSpecial h hs hspecial
  have hshape : Outline.ofExpression (Text.trim expression) =
      .union (Outline.splitUnion (Text.trim expression)) := by
    simp [Outline.ofExpression, hbar]
  rw [hshape] at hnested hassembly
  rw [Shape.nested, List.mapM_map] at hnested
  have hbuilt := forall₂_of_mapM hnested
  rw [Outline.splitUnion, Text.splitAt, List.forall₂_map_left_iff,
    List.forall₂_map_left_iff] at hbuilt
  refine ⟨members, ?_, ?_⟩
  · generalize Outline.splitUnion (Text.trim expression) = expressions at hassembly
    cases hassembly with
    | union _ hmembers =>
        rw [readMembers_bare hd] at hmembers
        obtain rfl := Checked.ok.inj hmembers
        rw [written, writtenMembers_eq]
  · have hpieces : ∀ piece ∈ Text.splitChars '|' (Text.trim expression).toList, '|' ∉ piece :=
      fun piece hpiece => Text.not_mem_of_mem_splitChars hpiece
    exact ((List.forall₂_and_left _ _).2 ⟨hpieces, hbuilt⟩).imp fun piece member hmember =>
      builtFromPiece_of_trim hmember.1 hmember.2

/-- Of an expression, what is written back is a part, and all of it exactly if nothing is lost of
any stretch between bars. -/
theorem keeps_of_build (hs : Outline.isSchema expression = false)
    (h : build bound name (.text expression) = .ok t) :
    Text.Keeps (Text.solid t.written.toList) (Text.solid expression.toList)
      (∀ piece ∈ Text.splitChars '|' expression.toList, ComesBack piece) := by
  by_cases hbar : '|' ∈ expression.toList
  · obtain ⟨name', d, e, hbuilt, hd, htype, hkept, -⟩ := build_text h
    obtain ⟨hnoSchema, hpadded⟩ := hkept hs
    have hbarWord : '|' ∈ (Text.trim e).toList := by
      have hmem : '|' ∈ Text.solid expression.toList := List.mem_filter.2 ⟨hbar, by decide⟩
      rw [hpadded.solid_eq] at hmem
      exact (List.mem_filter.1 hmem).1
    obtain ⟨members, hwritten, hmembers⟩ := union_of_bar hbuilt hd hnoSchema hbarWord
    have hsolid : Text.isSolid '|' = true := by decide
    have hpieces := Text.splitChars_padded hsolid hpadded
    have hkeeps := keeps_pieces hpieces hmembers
    have hall := Text.Keeps.intercalate hkeeps ['|']
    have hwhole := Text.intercalate_splitChars '|' expression.toList
    have hjoined : Text.solid ("|".intercalate (members.map written)).toList =
        ['|'].intercalate (members.map fun member => Text.solid member.written.toList) := by
      rw [String.toList_intercalate, List.map_map]
      exact (solid_intercalate _).trans (congrArg _ (List.map_map ..))
    rw [hwritten, hjoined, ← hwhole, solid_intercalate, hwhole]
    exact hall
  · rw [Text.splitChars_single hbar]
    have hkeeps := keeps_stretch hbar hs h
    refine hkeeps.congr ?_
    simp [ComesBack, hs]

/-- What is written back is part of the expression, and it is all of it but blanks and question marks
exactly if in every stretch between bars, schemas apart, brackets are followed by brackets only. -/
theorem comes_back_iff_brackets_last (hs : Outline.isSchema expression = false)
    (h : build bound name (.text expression) = .ok t) :
    (Text.solid t.written.toList).Sublist (Text.solid expression.toList) ∧
      (Text.solid t.written.toList = Text.solid expression.toList ↔
        ∀ piece ∈ Text.splitChars '|' expression.toList,
          Outline.isSchema (String.ofList piece) = true ∨ Text.BracketsLast piece) := by
  have hkeeps := keeps_of_build hs h
  exact ⟨hkeeps.sublist, hkeeps.eq_iff⟩

/-- All of a union of songs and nothing comes back. -/
theorem comes_back_iff_brackets_last_songs :
    Outline.isSchema " Song [] | nil ?" = false ∧
      ∃ t, build true "songs" (.text " Song [] | nil ?") = .ok t ∧
        Text.solid t.written.toList = "Song[]|nil".toList := by
  have hs : Outline.isSchema " Song [] | nil ?" = false := by decide
  have hrun : (build true "songs" (.text " Song [] | nil ?")).toOption.isSome = true := by
    decide
  obtain ⟨t, ht⟩ := Option.isSome_iff_exists.1 hrun
  have hbuilt := Except.eq_ok_of_toOption ht
  have hpieces : Text.splitChars '|' " Song [] | nil ?".toList =
      [" Song ".toList ++ ['[', ']', ' '], " nil ?".toList] := by decide
  have hlast : ∀ piece ∈ Text.splitChars '|' " Song [] | nil ?".toList,
      Outline.isSchema (String.ofList piece) = true ∨ Text.BracketsLast piece := by
    have hsong : Text.BracketsLast " Song ".toList := .plain (by decide)
    have hnil : Text.BracketsLast " nil ?".toList := .plain (by decide)
    have hgap : ∀ c ∈ [' '], Text.isSolid c = false :=
      List.forall_mem_singleton.2 (by decide)
    have hsongs := hsong.brackets hgap
    rw [hpieces, List.forall_mem_cons, List.forall_mem_singleton]
    exact ⟨.inr hsongs, .inr hnil⟩
  have hwhole := (comes_back_iff_brackets_last hs hbuilt).2.2 hlast
  exact ⟨hs, t, hbuilt, hwhole.trans (by decide)⟩

/-- What follows the last brackets is lost. -/
theorem not_always_comes_back :
    ¬ ∀ (bound : Bool) (name expression : String) (t : DataType),
      Outline.isSchema expression = false → build bound name (.text expression) = .ok t →
        Text.solid t.written.toList = Text.solid expression.toList := by
  intro hclaim
  have hrun : (build true "x" (.text "string[]foo")).toOption.map written = some "string[]" := by
    decide +kernel
  obtain ⟨t, ht, hwritten⟩ := Option.map_eq_some_iff.1 hrun
  have hwhole := hclaim true "x" "string[]foo" t (by decide) (Except.eq_ok_of_toOption ht)
  rw [hwritten] at hwhole
  revert hwhole
  decide

end DataType

end Raml
