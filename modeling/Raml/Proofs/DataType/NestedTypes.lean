import Raml.Proofs.Declaration.Rereading
import Raml.Proofs.Registry.OwnProperties

/-! # Nested types

The types nested in a built one are built from what its declaration says in its
own place: those of an object from `properties`, each name once and from its
last entry; that of an array from `items`, or from what its expression has
before the brackets; those of a union from what its expression has between the
bars. No other key has a say, with one exception: a list under `oneOf` takes the
place of a union's members.
-/

namespace Raml

/-! ## Bars -/

namespace Text

theorem length_splitChars (sep : Char) (cs : List Char) :
    (splitChars sep cs).length = cs.count sep + 1 := by
  induction cs with
  | nil => rfl
  | cons c rest ih =>
      obtain ⟨piece, pieces, hrest⟩ := List.exists_cons_of_ne_nil (splitChars_ne_nil sep rest)
      rw [hrest] at ih
      by_cases hc : c = sep
      · subst hc
        simp [splitChars, hrest, ← ih]
      · simpa [splitChars, hc, hrest] using ih

theorem length_splitAt (sep : Char) (s : String) :
    (splitAt sep s).length = s.toList.count sep + 1 := by
  rw [splitAt, List.length_map, length_splitChars]

theorem count_blanks {c : Char} (hc : isBlank c = false) {blanks : List Char}
    (h : ∀ b ∈ blanks, isBlank b = true) : blanks.count c = 0 := by
  rw [List.count_eq_zero]
  intro hmem
  rw [h c hmem] at hc
  cases hc

/-- Trimming takes nothing away but blanks. -/
theorem count_trim {c : Char} (hc : isBlank c = false) (s : String) :
    (trim s).toList.count c = s.toList.count c := by
  obtain ⟨before, hbefore, hs⟩ := exists_dropBlank s.toList
  obtain ⟨after, hafter, hrest⟩ := exists_dropBlankEnd (dropBlank s.toList)
  rw [trim, String.toList_ofList]
  conv_rhs => rw [hs, hrest]
  rw [List.count_append, List.count_append, count_blanks hc hbefore, count_blanks hc hafter]
  omega

end Text

namespace Outline

/-- The word that a type expression is read as: trimmed, and without a mark. -/
def word (expression : String) : String := Text.trim (unmark expression)

theorem count_bars_word (expression : String) :
    (word expression).toList.count '|' = expression.toList.count '|' := by
  rw [word, Text.count_trim (by decide)]
  by_cases hm : Text.endsIn '?' (Text.trimEnd expression) = true
  · obtain ⟨blanks, hb, hs⟩ := toList_trimEnd_of_marked hm
    have hnone := Text.count_blanks (c := '|') (by decide) hb
    rw [hs, List.count_append, List.count_cons_of_ne (by decide), hnone, Nat.add_zero]
  · rw [Bool.not_eq_true] at hm
    have htrim := Text.count_trim (c := '|') (by decide)
    rw [unmark, Text.removeSuffix_of_not_endsIn hm, ← htrim, Text.trim_trimEnd, htrim]

theorem length_splitUnion_word (expression : String) :
    (splitUnion (word expression)).length = (Text.splitAt '|' expression).length := by
  rw [splitUnion, List.length_map, Text.length_splitAt, Text.length_splitAt, count_bars_word]

/-! ## Structured outlines -/

variable {name expression : String} {d : Mapping} {o : Outline}

theorem settleOptional_name (name : String) (d : Mapping) (expression : String) :
    (settleOptional name d expression).1 = Text.removeSuffix '?' name := by
  unfold settleOptional
  split
  · dsimp only
    split <;> rfl
  · next hopt =>
      rw [isOptional, Bool.not_eq_true, Bool.or_eq_false_iff] at hopt
      exact (Text.removeSuffix_of_not_endsIn hopt.1).symm

theorem trim_settled (h : isSchema (settleOptional name d expression).2.2 = false) :
    Text.trim (settleOptional name d expression).2.2 = word expression := by
  refine trim_settleOptional name d ?_
  rw [← Bool.not_eq_true] at h ⊢
  exact fun hs => h ((settleOptional_of_isSchema name d hs).symm ▸ hs)

theorem isSchema_of_word {w : String} (h : Text.trim expression = w)
    (hxml : Text.startsIn '<' w = false) (hjson : Text.startsIn '\x7b' w = false) :
    isSchema expression = false :=
  (isSchema_eq_false_iff expression).2 (h.symm ▸ ⟨hxml, hjson⟩)

theorem readItems_congr (name : String) {d d' : Mapping} (h : d.field "items" = d'.field "items") :
    readItems name d = readItems name d' := by
  unfold readItems
  rw [h]

/-- The items that an array is declared with: under `items`, or before the brackets. -/
def itemsOf (name : String) (d : Mapping) (expression : String) : List (String × Value) :=
  if word expression = "array" then (readItems (Text.removeSuffix '?' name) d).toList
  else
    match Text.beforeLast? ['[', ']'] (word expression).toList with
    | some item => [(Text.trim (String.ofList item), .text (Text.trim (String.ofList item)))]
    | none => []

theorem ofExpression_array_items {w : String} {items : Option (String × Value)}
    (h : ofExpression w = .array items) :
    ∃ item, Text.beforeLast? ['[', ']'] w.toList = some item ∧
      items = some (Text.trim (String.ofList item), .text (Text.trim (String.ofList item))) := by
  unfold ofExpression at h
  split at h
  · cases h
  · split at h
    · next item hitem =>
        obtain rfl := Shape.array.inj h
        exact ⟨item, hitem, rfl⟩
    · cases h

theorem ofExpression_union_members {w : String} {members : List String}
    (h : ofExpression w = .union members) : members = splitUnion w := by
  unfold ofExpression at h
  split at h
  · exact (Shape.union.inj h).symm
  · split at h <;> cases h

theorem ofText_array (h : ofText name d expression = .ok o) {items : Option (String × Value)}
    (hshape : o.shape = .array items) : items.toList = itemsOf name d expression := by
  rw [ofText_eq, ofSettled_eq_ok_iff, settleOptional_name] at h
  cases h with
  | array hword =>
      obtain rfl := Shape.array.inj hshape
      have hw : word expression = "array" := by
        rw [← trim_settled (isSchema_of_word hword (by decide) (by decide)), hword]
      have hfield : (settleOptional name d expression).2.1.field "items" = d.field "items" := by
        simp only [Mapping.field,
          settleOptional_field? d name expression (s := "items") (by decide) (by decide)]
      rw [itemsOf, if_pos hw, readItems_congr _ hfield]
  | plain _ _ harray hs =>
      have htrim := trim_settled hs
      dsimp only at hshape
      rw [htrim] at harray hshape
      obtain ⟨item, hitem, rfl⟩ := ofExpression_array_items hshape
      rw [itemsOf, if_neg harray, hitem]
      rfl
  | scalar | object | xml | json => cases hshape

theorem ofText_union (h : ofText name d expression = .ok o) {members : List String}
    (hshape : o.shape = .union members) : members = splitUnion (word expression) := by
  rw [ofText_eq, ofSettled_eq_ok_iff] at h
  cases h with
  | plain _ _ _ hs =>
      have htrim := trim_settled hs
      dsimp only at hshape
      rw [htrim] at hshape
      exact ofExpression_union_members hshape
  | scalar | object | array | xml | json => cases hshape

end Outline

namespace DataType

open Declaration

variable {bound : Bool} {name expression : String} {definition : Value} {d : Mapping} {c : Common}

/-! ## Objects -/

theorem build_object_declared {f : ObjectFacets} {properties : List (String × DataType)}
    (h : build bound name definition = .ok (.object c f properties))
    (hd : normalize definition = .ok d) :
    ∃ built, List.Forall₂ (BuiltFrom bound) (Declaration.properties d) built ∧
      properties = Table.ofList built := by
  obtain ⟨built, hbuilt, hlist⟩ := build_object h
  obtain ⟨o, nested, ho, -, ha⟩ := build_eq_ok h
  have hkept : c.declaration = o.declaration := ha.declaration
  have hfield := Outline.ofDefinition_normal_field? ho hd (s := "properties") (by decide) (by decide)
  have hsame : Declaration.properties c.declaration = Declaration.properties d := by
    simp only [Declaration.properties, Mapping.field, hkept, hfield]
  exact ⟨built, hsame ▸ hbuilt, hlist⟩

/-- The types nested in an object are built from the last entry of each name. -/
theorem build_object_nested {f : ObjectFacets} {properties : List (String × DataType)}
    (h : build bound name definition = .ok (.object c f properties))
    (hd : normalize definition = .ok d) :
    List.Forall₂ (fun property u => ∃ e, lastNamed (Declaration.properties d) property = some e ∧
        build bound e.1.shown e.2 = .ok u)
      ((Declaration.properties d).map fun e => propertyName e.1).eraseDups
      (properties.map (·.2)) := by
  obtain ⟨built, hbuilt, rfl⟩ := build_object_declared h hd
  have hnames : built.map (·.1) = (Declaration.properties d).map fun e => propertyName e.1 :=
    map_eq_of_forall₂ (hbuilt.imp fun _ _ hb => hb.1)
  rw [← hnames, ← Table.keys_ofList, Table.keys, List.forall₂_map_left_iff,
    List.forall₂_map_right_iff, List.forall₂_same]
  rintro ⟨property, u⟩ hmem
  have hrel := get?_ofList_builtFrom hbuilt property
  rw [Table.get?_of_mem (Table.distinct_ofList built) hmem] at hrel
  obtain ⟨e, hlast, hu⟩ := exists_of_rel_right hrel
  exact ⟨e, hlast, hu⟩

/-! ## Arrays and unions -/

theorem build_array_nested {f : ArrayFacets} {items : Option DataType}
    (h : build bound name definition = .ok (.array c f items))
    (hd : normalize definition = .ok d) (he : d.field? "type" = some (.text expression)) :
    List.Forall₂ (fun p u => build bound p.1 p.2 = .ok u) (Outline.itemsOf name d expression)
      items.toList := by
  obtain ⟨⟨name', d', shape⟩, nested, ho, hnested, ha⟩ := build_eq_ok_iff.1 h
  rw [Outline.ofDefinition_of_text hd he] at ho
  cases assemble_eq_ok_iff.1 ha with
  | @array declared _ _ hc hf =>
      have hbuilt := forall₂_of_mapM hnested
      rw [← Outline.ofText_array ho rfl]
      cases declared with
      | none =>
          cases hbuilt
          exact .nil
      | some item =>
          cases hbuilt with
          | cons hu hrest =>
              cases hrest
              exact .cons hu .nil

/-- The members of a union are built from what its expression has between the bars, unless a list
takes their place. -/
theorem build_union_nested {members : List DataType}
    (h : build bound name definition = .ok (.union c members))
    (hd : normalize definition = .ok d) (he : d.field? "type" = some (.text expression)) :
    (d.field? "oneOf" = none →
      List.Forall₂ (fun m u => build bound m (.text m) = .ok u)
        (Outline.splitUnion (Outline.word expression)) members) ∧
      ∀ v, d.field? "oneOf" = some v →
        (Field.items? v).bind (fun items => items.mapM untyped?) = some members := by
  obtain ⟨⟨name', d', shape⟩, nested, ho, hnested, ha⟩ := build_eq_ok_iff.1 h
  have hlist := Outline.ofDefinition_normal_field? ho hd (s := "oneOf") (by decide) (by decide)
  rw [Outline.ofDefinition_of_text hd he] at ho
  cases assemble_eq_ok_iff.1 ha with
  | @union expressions _ _ hc hm =>
      have hbuilt := forall₂_of_mapM hnested
      rw [Shape.nested, List.forall₂_map_left_iff, Outline.ofText_union ho rfl] at hbuilt
      rw [readMembers, hlist] at hm
      refine ⟨fun hnone => ?_, fun v hv => ?_⟩
      · rw [hnone] at hm
        obtain rfl := Checked.ok.inj hm
        exact hbuilt
      · rw [hv] at hm
        dsimp only at hm
        split at hm
        · next found hfound =>
            obtain rfl := Checked.ok.inj hm
            exact hfound
        · cases hm

/-! ## All kinds -/

theorem build_structured {t : DataType} (h : build bound name definition = .ok t)
    (hk : t.kind = .object ∨ t.kind = .array ∨ t.kind = .union) :
    ∃ d expression, normalize definition = .ok d ∧ d.field? "type" = some (.text expression) := by
  obtain ⟨o, nested, ho, -, ha⟩ := build_eq_ok h
  rw [ha.kind] at hk
  rcases Outline.ofDefinition_cases ho with
    ⟨schema, -, rfl⟩ | ⟨d, hd, ⟨schema, -, rfl⟩ | ⟨expression, he, -⟩⟩
  · simp [Shape.kind] at hk
  · simp [Shape.kind] at hk
  · exact ⟨d, expression, hd, he⟩

/-- The types nested in an object, an array or a union are built from its properties, each name once
and from its last entry, from its items, or from the stretches between the bars of its expression, in
order and whatever else it is declared with. Only a list under `oneOf` takes the place of the members
of a union. -/
theorem nested_built_from_raw {t : DataType} (h : build bound name definition = .ok t)
    (hk : t.kind = .object ∨ t.kind = .array ∨ t.kind = .union) :
    ∃ d expression, normalize definition = .ok d ∧ d.field? "type" = some (.text expression) ∧
      (t.kind = .object →
        List.Forall₂ (fun property u => ∃ e,
            lastNamed (Declaration.properties d) property = some e ∧
              build bound e.1.shown e.2 = .ok u)
          ((Declaration.properties d).map fun e => propertyName e.1).eraseDups t.nested) ∧
      (t.kind = .array →
        List.Forall₂ (fun p u => build bound p.1 p.2 = .ok u) (Outline.itemsOf name d expression)
          t.nested) ∧
      (t.kind = .union → d.field? "oneOf" = none →
        List.Forall₂ (fun m u => build bound m (.text m) = .ok u)
            (Outline.splitUnion (Outline.word expression)) t.nested ∧
          t.nested.length = (Text.splitAt '|' expression).length) ∧
      (t.kind = .union → ∀ v, d.field? "oneOf" = some v →
        (Field.items? v).bind (fun items => items.mapM untyped?) = some t.nested) := by
  obtain ⟨d, expression, hd, he⟩ := build_structured h hk
  refine ⟨d, expression, hd, he, ?_⟩
  cases t with
  | object c f properties => exact ⟨fun _ => build_object_nested h hd, nofun, nofun, nofun⟩
  | array c f items => exact ⟨nofun, fun _ => build_array_nested h hd he, nofun, nofun⟩
  | union c members =>
      obtain ⟨hbars, hlist⟩ := build_union_nested h hd he
      refine ⟨nofun, nofun, fun _ hnone => ⟨hbars hnone, ?_⟩, fun _ => hlist⟩
      rw [← Outline.length_splitUnion_word]
      exact (hbars hnone).length_eq.symm
  | scalar c s => cases s <;> simp [kind, Scalar.kind] at hk
  | reference => simp [kind] at hk

/-- The declaration of a union, with a list under a key like that of its members. -/
def unionFacets (key : String) : Mapping :=
  [(.text "type", .text "string | integer"), (.text key, .list [])]

/-- A list under any other key leaves the two members of the union alone. -/
theorem nested_built_from_raw_union : ∃ t,
    build true "x" (.map (unionFacets "one_of")) = .ok t ∧ t.kind = .union ∧
      t.nested.length = 2 := by
  have hbuild : build true "x" (.map (unionFacets "one_of")) = .ok _ :=
    Except.eq_ok_get rfl
  obtain ⟨d, expression, hd, he, -, -, hmembers, -⟩ := nested_built_from_raw hbuild (.inr (.inr rfl))
  obtain rfl := Except.ok.inj hd
  obtain rfl := Value.text.inj (Option.some.inj he)
  exact ⟨_, hbuild, rfl, (hmembers rfl rfl).2.trans (by decide)⟩

/-- An empty list under `oneOf` leaves a union without members. -/
theorem not_as_many_members_as_stretches :
    ¬ ∀ (bound : Bool) (name : String) (definition : Value) (t : DataType) (d : Mapping)
        (expression : String), build bound name definition = .ok t → t.kind = .union →
          normalize definition = .ok d → d.field? "type" = some (.text expression) →
            t.nested.length = (Text.splitAt '|' expression).length := by
  intro hclaim
  have hlength := hclaim true "x" (.map (unionFacets "oneOf")) _ _ _
    (Except.eq_ok_get rfl) rfl rfl rfl
  exact absurd hlength (by decide)

end DataType

end Raml
