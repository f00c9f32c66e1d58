import Raml.DataType.Build
import Raml.Proofs.Declaration.Outlines

/-! # Nested declarations

Every declaration nested in another weighs less than it: it is the value of one
of its fields, of one of its properties, or a proper part of its type
expression. So the weight of a declaration is depth enough to build it, and a
type is built from the types of its nested declarations alone.
-/

namespace Raml

/-! ## Weights of fields -/

namespace Value

theorem weight_le_weightEntries {entries : Mapping} {k v : Value} (h : (k, v) ∈ entries) :
    v.weight ≤ weightEntries entries := by
  induction entries with
  | nil => simp at h
  | cons e rest ih =>
      simp only [weightEntries]
      rcases List.mem_cons.1 h with rfl | hm
      · simp only [weightEntry]
        omega
      · have := ih hm
        omega

theorem weight_lt_of_mem {entries : Mapping} {k v : Value} (h : (k, v) ∈ entries) :
    v.weight < (Value.map entries).weight :=
  Nat.lt_succ_of_le (weight_le_weightEntries h)

theorem weight_lt_of_field? {m : Mapping} {s : String} {v : Value} (h : m.field? s = some v) :
    v.weight < (Value.map m).weight := by
  obtain ⟨k, -, hm⟩ := Table.mem_of_get? h
  exact weight_lt_of_mem hm

end Value

/-! ## Parts of an expression -/

namespace Text

theorem trimEnd_isPrefix (s : String) : (trimEnd s).toList <+: s.toList := by
  obtain ⟨blanks, -, hs⟩ := exists_dropBlankEnd s.toList
  exact ⟨blanks, by simpa [trimEnd] using hs.symm⟩

theorem trim_infix (s : String) : (trim s).toList <:+: s.toList := by
  obtain ⟨before, -, hs⟩ := exists_dropBlank s.toList
  obtain ⟨after, -, hcs⟩ := exists_dropBlankEnd (dropBlank s.toList)
  refine ⟨before, after, ?_⟩
  rw [trim, String.toList_ofList, List.append_assoc, ← hcs, ← hs]

theorem removeSuffix_isPrefix (c : Char) (s : String) : (removeSuffix c s).toList <+: s.toList := by
  unfold removeSuffix
  split
  · simpa using List.dropLast_prefix s.toList
  · exact List.prefix_refl _

/-- A character in front is a separator with nothing before it, or the first piece begins with it. -/
theorem splitChars_cons_cases (sep c : Char) (rest : List Char) :
    (c = sep ∧ splitChars sep (c :: rest) = [] :: splitChars sep rest) ∨
      (c ≠ sep ∧ ∃ first pieces, splitChars sep rest = first :: pieces ∧
        splitChars sep (c :: rest) = (c :: first) :: pieces) := by
  by_cases hc : c = sep
  · exact .inl ⟨hc, by rw [splitChars, if_pos hc]⟩
  · obtain ⟨first, pieces, hrest⟩ := List.exists_cons_of_ne_nil (splitChars_ne_nil sep rest)
    exact .inr ⟨hc, first, pieces, hrest, by rw [splitChars, if_neg hc, hrest]⟩

theorem head_splitChars_isPrefix {sep : Char} {cs piece : List Char} {pieces : List (List Char)}
    (h : splitChars sep cs = piece :: pieces) : piece <+: cs := by
  induction cs generalizing piece pieces with
  | nil =>
      obtain ⟨rfl, -⟩ := List.cons.inj h
      exact List.nil_prefix
  | cons c rest ih =>
      rcases splitChars_cons_cases sep c rest with ⟨-, hs⟩ | ⟨-, first, others, hrest, hs⟩
      · obtain ⟨rfl, -⟩ := List.cons.inj (hs.symm.trans h)
        exact List.nil_prefix
      · obtain ⟨rfl, -⟩ := List.cons.inj (hs.symm.trans h)
        exact (List.prefix_cons_inj c).2 (ih hrest)

theorem infix_of_mem_splitChars {sep : Char} {cs piece : List Char}
    (h : piece ∈ splitChars sep cs) : piece <:+: cs := by
  induction cs with
  | nil => simp_all [splitChars]
  | cons c rest ih =>
      have hlater : piece ∈ splitChars sep rest → piece <:+: c :: rest := fun hm =>
        (ih hm).trans (List.suffix_cons c rest).isInfix
      rcases splitChars_cons_cases sep c rest with ⟨-, hs⟩ | ⟨-, first, others, hrest, hs⟩
      · rw [hs] at h
        rcases List.mem_cons.1 h with rfl | hm
        · exact List.nil_prefix.isInfix
        · exact hlater hm
      · have hfirst := (head_splitChars_isPrefix hs).isInfix
        rw [hs] at h
        rcases List.mem_cons.1 h with rfl | hm
        · exact hfirst
        · exact hlater (hrest ▸ List.mem_cons_of_mem _ hm)

theorem not_mem_of_mem_splitChars {sep : Char} {cs piece : List Char}
    (h : piece ∈ splitChars sep cs) : sep ∉ piece := by
  induction cs generalizing piece with
  | nil =>
      rw [splitChars, List.mem_singleton] at h
      simp [h]
  | cons c rest ih =>
      rcases splitChars_cons_cases sep c rest with ⟨-, hs⟩ | ⟨hne, first, others, hrest, hs⟩
      · rw [hs] at h
        rcases List.mem_cons.1 h with rfl | hm
        · exact List.not_mem_nil
        · exact ih hm
      · rw [hs] at h
        rcases List.mem_cons.1 h with rfl | hm
        · have hfirst : sep ∉ first := ih (hrest ▸ List.mem_cons_self)
          exact List.not_mem_cons_of_ne_of_not_mem hne.symm hfirst
        · exact ih (hrest ▸ List.mem_cons_of_mem _ hm)

/-- A piece between separators lacks at least the separator. -/
theorem length_lt_of_mem_splitChars {sep : Char} {cs piece : List Char} (hsep : sep ∈ cs)
    (h : piece ∈ splitChars sep cs) : piece.length < cs.length := by
  have hpart := infix_of_mem_splitChars h
  refine hpart.length_le.lt_of_ne fun hlength => not_mem_of_mem_splitChars h ?_
  rwa [hpart.eq_of_length hlength]

/-- What stands before the last occurrence of a marker is followed by it. -/
theorem beforeLast?_isPrefix {marker cs found : List Char}
    (h : beforeLast? marker cs = some found) : found ++ marker <+: cs := by
  induction cs generalizing found with
  | nil =>
      simp only [beforeLast?] at h
      split at h
      · next hm => simp_all
      · simp at h
  | cons c rest ih =>
      rw [beforeLast?] at h
      split at h
      · next found' hf =>
          obtain rfl := Option.some.inj h
          exact (List.prefix_cons_inj c).2 (ih hf)
      · split at h
        · next hp =>
            obtain rfl := Option.some.inj h
            exact List.isPrefixOf_iff_prefix.1 hp
        · simp at h

end Text

/-! ## Declarations nested in a declaration -/

def Declaration.Holds (d : Mapping) (v : Value) : Prop :=
  d.field? "items" = some v ∨ ∃ k, (k, v) ∈ Declaration.properties d

theorem Declaration.Holds.of_fields {d d' : Mapping} {v : Value} (h : Holds d v)
    (hitems : d.field? "items" = d'.field? "items")
    (hproperties : d.field? "properties" = d'.field? "properties") : Holds d' v := by
  rcases h with h | ⟨k, hm⟩
  · exact .inl (hitems ▸ h)
  · refine .inr ⟨k, ?_⟩
    simpa only [Declaration.properties, Mapping.field, hproperties] using hm

theorem Declaration.Holds.weight_lt {d : Mapping} {v : Value} (h : Holds d v) :
    v.weight < (Value.map d).weight := by
  rcases h with h | ⟨k, hm⟩
  · exact Value.weight_lt_of_field? h
  · have hlt := Value.weight_lt_of_mem hm
    cases hp : d.field? "properties" with
    | none => simp [Declaration.properties, Mapping.field, hp] at hm
    | some own =>
        have hown := Value.weight_lt_of_field? hp
        cases own with
        | map own =>
            rw [Declaration.properties_eq_of_field? hp] at hlt
            omega
        | _ => simp [Declaration.properties, Mapping.field, hp] at hm

namespace Outline

/-- Whether a text can be a type expression with others in it. -/
def IsCompound (expression : String) : Prop :=
  '|' ∈ expression.toList ∨ '[' ∈ expression.toList

instance (expression : String) : Decidable (IsCompound expression) := by
  unfold IsCompound
  infer_instance

theorem IsCompound.of_infix {part whole : String} (h : part.toList <:+: whole.toList)
    (hc : IsCompound part) : IsCompound whole :=
  hc.imp (fun hm => h.subset hm) fun hm => h.subset hm

def IsPart (v : Value) (expression : String) : Prop :=
  ∃ part : String, v = .text part ∧ part.toList <:+: expression.toList ∧
    part.length < expression.length ∧ IsCompound expression

theorem ofExpression_nested {word : String} {p : String × Value}
    (hp : p ∈ (ofExpression word).nested) : IsPart p.2 word := by
  unfold ofExpression at hp
  split at hp
  · next hbar =>
      rw [List.contains_iff_mem] at hbar
      simp only [Shape.nested, splitUnion, Text.splitAt, List.map_map, List.mem_map,
        Function.comp_apply] at hp
      obtain ⟨piece, hpiece, rfl⟩ := hp
      have hlt := Text.length_lt_of_mem_splitChars hbar hpiece
      have htrim := Text.trim_infix (String.ofList piece)
      have hle := htrim.length_le
      rw [String.toList_ofList] at htrim
      simp only [String.toList_ofList, String.length_toList] at hle hlt
      exact ⟨_, rfl, htrim.trans (Text.infix_of_mem_splitChars hpiece), by omega, .inl hbar⟩
  · split at hp
    · next item hitem =>
        have hprefix := Text.beforeLast?_isPrefix hitem
        have hlt := hprefix.length_le
        have htrim := Text.trim_infix (String.ofList item)
        have hle := htrim.length_le
        rw [String.toList_ofList] at htrim
        have hitem : item <:+: word.toList := ((List.prefix_append _ _).trans hprefix).isInfix
        have hin : ['[', ']'] <:+: word.toList :=
          (List.suffix_append _ _).isInfix.trans hprefix.isInfix
        simp only [Shape.nested, Option.toList_some, List.mem_singleton] at hp
        subst hp
        simp only [String.toList_ofList, String.length_toList, List.length_append,
          List.length_cons, List.length_nil] at hle hlt
        exact ⟨_, rfl, htrim.trans hitem, by omega, .inr (hin.subset (by simp))⟩
    · simp [Shape.nested] at hp

theorem settleOptional_isPrefix (name : String) (d : Mapping) (expression : String) :
    (settleOptional name d expression).2.2.toList <+: expression.toList := by
  unfold settleOptional
  split
  · dsimp only
    split
    · exact List.prefix_refl _
    · dsimp only
      exact (Text.removeSuffix_isPrefix '?' _).trans (Text.trimEnd_isPrefix expression)
  · exact List.prefix_refl _

theorem readProperties_nested {name : String} {d : Mapping} {properties : List (String × Value)}
    (h : readProperties name d = .ok properties) :
    properties = (Declaration.properties d).map fun e => (e.1.shown, e.2) := by
  unfold readProperties at h
  dsimp only at h
  unfold Declaration.properties
  cases hv : d.field "properties" with
  | map entries =>
      simp only [hv] at h
      split at h
      · next hempty =>
          obtain rfl := Except.ok.inj h
          simp only [Value.isEmpty, List.isEmpty_iff] at hempty
          simp [hempty]
      · exact (Except.ok.inj h).symm
  | _ =>
      simp only [hv] at h
      split at h
      · exact (Except.ok.inj h).symm
      · simp at h

theorem readItems_nested {name : String} {d : Mapping} {p : String × Value}
    (h : readItems name d = some p) : d.field? "items" = some p.2 := by
  unfold readItems at h
  cases hv : d.field? "items" with
  | none => simp [Mapping.field, hv] at h
  | some items =>
      rw [Mapping.field_of_field? hv] at h
      split at h
      · simp at h
      · obtain rfl := Option.some.inj h
        rfl
      · obtain rfl := Option.some.inj h
        rfl

theorem ofText_nested {name expression : String} {d : Mapping} {o : Outline}
    (h : ofText name d expression = .ok o) {p : String × Value} (hp : p ∈ o.shape.nested) :
    Declaration.Holds d p.2 ∨ IsPart p.2 expression := by
  have hfields : Declaration.Holds o.declaration p.2 → Declaration.Holds d p.2 := by
    rw [(ofText_spec h).1]
    exact fun hh => hh.of_fields
      (settleOptional_field? d name expression (by decide) (by decide))
      (settleOptional_field? d name expression (by decide) (by decide))
  obtain ⟨-, -, ⟨hnil, -⟩ | ⟨properties, hshape, hread⟩ | ⟨name', hshape⟩ | hshape, -⟩ :=
    ofText_spec h
  · rw [hnil] at hp
    simp at hp
  · rw [hshape, readProperties_nested hread] at hp
    simp only [Shape.nested, List.mem_map] at hp
    obtain ⟨e, he, rfl⟩ := hp
    exact .inl (hfields (.inr ⟨e.1, he⟩))
  · rw [hshape] at hp
    exact .inl (hfields (.inl (readItems_nested (by simpa [Shape.nested] using hp))))
  · rw [hshape] at hp
    obtain ⟨part, hpart, hinfix, hlt, hc⟩ := ofExpression_nested hp
    have hin := (Text.trim_infix (settleOptional name d expression).2.2).trans
      (settleOptional_isPrefix name d expression).isInfix
    have hle := hin.length_le
    simp only [String.length_toList] at hle
    exact .inr ⟨part, hpart, hinfix.trans hin, by omega, hc.of_infix hin⟩

theorem IsPart.weight_lt {v : Value} {expression : String} (h : IsPart v expression) :
    v.weight < (Value.text expression).weight := by
  obtain ⟨part, rfl, -, hlt, -⟩ := h
  simp only [Value.weight]
  omega

theorem weight_lt_of_nested {name : String} {definition : Value} {o : Outline}
    (h : ofDefinition name definition = .ok o) {p : String × Value} (hp : p ∈ o.shape.nested) :
    p.2.weight < definition.weight := by
  rcases ofDefinition_cases h with
    ⟨schema, -, rfl⟩ | ⟨d, hd, ⟨schema, -, rfl⟩ | ⟨expression, he, ho⟩⟩
  · simp [Shape.nested] at hp
  · simp [Shape.nested] at hp
  · cases definition with
    | text e =>
        obtain rfl := Except.ok.inj hd
        obtain rfl : e = expression := by simpa [Mapping.field?, Table.get?] using he
        rcases ofText_nested ho hp with (hitems | ⟨k, hm⟩) | hpart
        · simp [Mapping.field?, Table.get?] at hitems
        · simp [Declaration.properties, Mapping.field, Mapping.field?, Table.get?] at hm
        · exact hpart.weight_lt
    | null =>
        obtain rfl := Except.ok.inj hd
        obtain rfl : "string" = expression := by simpa [Mapping.field?, Table.get?] using he
        rcases ofText_nested ho hp with (hitems | ⟨k, hm⟩) | ⟨-, -, -, -, hc⟩
        · simp [Mapping.field?, Table.get?] at hitems
        · simp [Declaration.properties, Mapping.field, Mapping.field?, Table.get?] at hm
        · exact absurd hc (by decide)
    | map m =>
        obtain rfl := Except.ok.inj hd
        rcases ofText_nested ho hp with hheld | hpart
        · exact (hheld.of_fields (Declaration.field?_withType m (by decide) (by decide))
            (Declaration.field?_withType m (by decide) (by decide))).weight_lt
        · rcases Declaration.withType_source he with hs | ⟨s, hs⟩
          · obtain ⟨-, -, -, -, hc⟩ := hpart
            rcases hs with hs | hs <;> cases hs <;> exact absurd hc (by decide)
          · exact hpart.weight_lt.trans (Value.weight_lt_of_field? hs)
    | _ => simp [Declaration.normalize] at hd

end Outline

end Raml
