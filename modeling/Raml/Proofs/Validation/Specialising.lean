import Raml.Proofs.DataType.Twins
import Raml.Proofs.Registry.NearestDeclarer
import Raml.Proofs.Validation.Unresolved

/-! # Subtypes declared and written inline

The facets beside a reference are merged into its target's declaration in two
ways: once and for all when the reference is registered and inheritance is
applied, or each time a value is checked, unless they describe only. The two
accept the same values, as far as the target's own references can be looked up:
what is rebuilt can look up all of its references, while the target itself may
have been built without a registry.
-/

namespace Raml

open DataType Relation

/-! ## Merged declarations -/

namespace Declaration

variable {parent child child' : Mapping} {s : String}

theorem field?_merge (parent : Mapping) (hc : Table.Distinct child) (htype : "type" ≠ s)
    (hproperties : "properties" ≠ s) :
    (merge parent child).field? s = (child.field? s).or (parent.field? s) := by
  have h := get?_foldl_mergeFacet parent parent hc
    (show (.text s : Value) ≠ .text "type" by simpa using htype.symm)
    fun a b _ _ => Value.coherent_text a b _
  have hown : ∀ v, mergedValue parent (.text s, v) = v :=
    mergedValue_of_ne (by simpa using hproperties.symm) parent
  simpa [merge, Mapping.field?, hown] using h

/-- Subtypes that agree on a field agree on it once they are merged. -/
theorem field?_merge_congr (parent : Mapping) (hc : Table.Distinct child)
    (hc' : Table.Distinct child') (htype : "type" ≠ s) (h : child.field? s = child'.field? s) :
    (merge parent child).field? s = (merge parent child').field? s := by
  by_cases hproperties : "properties" = s
  · subst hproperties
    rw [field?_merge_properties parent hc, field?_merge_properties parent hc', h]
  · rw [field?_merge parent hc htype hproperties, field?_merge parent hc' htype hproperties, h]

/-- A field that a subtype does not have is its supertype's. -/
theorem field?_merge_of_absent (parent : Mapping) (hc : Table.Distinct child) (htype : "type" ≠ s)
    (h : child.field? s = none) : (merge parent child).field? s = parent.field? s := by
  by_cases hproperties : "properties" = s
  · subst hproperties
    rw [field?_merge_properties parent hc, h, Option.map_none, Option.none_or]
  · rw [field?_merge parent hc htype hproperties, h, Option.none_or]

theorem withType_isDict {d : Mapping} (h : Mapping.IsDict d) : Mapping.IsDict (withType d) := by
  unfold withType
  split
  · dsimp only
    split
    · exact h.setField _ _
    · exact (h.eraseField _).setField _ _
  · exact h

end Declaration

/-- Whether the field `required` of a declaration can be read. -/
def Declaration.TellsRequired (d : Mapping) : Prop :=
  ∃ b, Field.read d "required" "required" (some true) Field.truth? = .ok b

theorem Declaration.TellsRequired.of_field? {d d' : Mapping} (h : TellsRequired d)
    (hsame : d'.field? "required" = d.field? "required") : TellsRequired d' := by
  simpa only [TellsRequired, Field.read, hsame] using h

theorem Declaration.TellsRequired.of_absent {d : Mapping} (h : d.field? "required" = none) :
    TellsRequired d :=
  ⟨true, by simp only [Field.read, h]⟩

theorem Declaration.TellsRequired.merge {parent child : Mapping} (hp : TellsRequired parent)
    (hc : TellsRequired child) (hdistinct : Table.Distinct child) :
    TellsRequired (Declaration.merge parent child) := by
  have hfield := field?_merge parent hdistinct (s := "required") (by decide) (by decide)
  cases hchild : child.field? "required" with
  | none =>
      rw [hchild, Option.none_or] at hfield
      exact hp.of_field? hfield
  | some v =>
      rw [hchild, Option.some_or, ← hchild] at hfield
      exact hc.of_field? hfield

theorem Declaration.TellsRequired.settleOptional {d : Mapping} (h : TellsRequired d)
    (name expression : String) : TellsRequired (Outline.settleOptional name d expression).2.1 := by
  have hdefault : TellsRequired (Outline.withDefault d "required" (.bool false)) := by
    unfold Outline.withDefault
    split
    · exact h
    · exact ⟨false, by simp [Field.read, Field.truth?]⟩
  unfold Outline.settleOptional
  split
  · dsimp only
    split
    · exact hdefault
    · exact hdefault.of_field? (by simp)
  · exact h

namespace Outline

theorem settleOptional_isUnmarked_type {name expression : String} {d : Mapping}
    (h : isSchema expression = false → Text.endsIn '?' (Text.trimEnd expression) = false) :
    isSchema (settleOptional name d expression).2.2 = false →
      Text.endsIn '?' (Text.trimEnd (settleOptional name d expression).2.2) = false := by
  have hsame := settleOptional_sameText_of_unmarked name d h
  intro hs
  have hend := h (hsame.isSchema.trans hs)
  rw [← Bool.not_eq_true, endsIn_trimEnd_iff] at hend ⊢
  rwa [← hsame.trim]

/-- A mapping whose type has no mark is read as one that keeps a type without a mark. -/
theorem ofDefinition_map_keepsUnmarked {name : String} {m : Mapping} {v : Value} {o : Outline}
    (hv : m.field? "type" = some v) (hnull : v.isNull = false) (hm : KeepsUnmarked m)
    (h : ofDefinition name (.map m) = .ok o) : KeepsUnmarked o.declaration := by
  rcases ofDefinition_map_cases hv hnull h with ⟨schema, rfl, rfl⟩ | ⟨expression, rfl, ho⟩
  · exact hm
  · intro expression' he'
    rw [(ofText_spec ho).1, settleOptional_type hv] at he'
    obtain rfl := Value.text.inj (Option.some.inj he')
    exact settleOptional_isUnmarked_type (hm expression hv)

theorem ofDefinition_reference {name name' target : String} {definition : Value} {o o' : Outline}
    (h : ofDefinition name definition = .ok o) (h' : ofDefinition name' definition = .ok o')
    (hshape : o.shape = .reference target) :
    ∃ d expression, Declaration.normalize definition = .ok d ∧
      d.field? "type" = some (.text expression) ∧ o'.shape = .reference target ∧
      o.declaration = (settleOptional name d expression).2.1 ∧
      o'.declaration = (settleOptional name' d expression).2.1 := by
  rcases ofDefinition_cases h with
    ⟨schema, -, rfl⟩ | ⟨d, hd, ⟨schema, -, rfl⟩ | ⟨expression, he, ho⟩⟩
  · cases hshape
  · cases hshape
  · rw [ofDefinition_of_text hd he] at h'
    refine ⟨d, expression, hd, he, ?_, (ofText_spec ho).1, (ofText_spec h').1⟩
    rw [ofText_eq] at ho h'
    have hfield : ∀ {s : String}, "type" ≠ s → "required" ≠ s →
        (settleOptional name d expression).2.1.field s =
          (settleOptional name' d expression).2.1.field s := fun {s} htype hrequired => by
      simp only [Mapping.field, settleOptional_field? _ _ _ htype hrequired]
    obtain ⟨o'', ho'', -, -, halike, -⟩ :=
      ofSettled_alike (settleOptional name' d expression).1
        (settleOptional_sameText name name' d d expression)
        (fun _ _ => hfield (by decide) (by decide)) (hfield (by decide) (by decide)) ho
    obtain rfl := Except.ok.inj (h'.symm.trans ho'')
    rw [hshape] at halike
    generalize o'.shape = shape' at halike
    cases halike
    rfl

end Outline

namespace DataType

/-- A type expression with at most one mark is kept without any. -/
theorem build_keepsUnmarked {bound : Bool} {name : String} {definition : Value} {t : DataType}
    (h : build bound name definition = .ok t)
    (honce : ∀ d expression, Declaration.normalize definition = .ok d →
      d.field? "type" = some (.text expression) → Outline.isSchema expression = false →
        Text.endsIn '?' (Text.trimEnd (Outline.unmark expression)) = false) :
    Outline.KeepsUnmarked t.declaration := by
  obtain ⟨o, nested, ho, -, ht⟩ := build_eq_ok h
  rw [ht.declaration]
  rcases Outline.ofDefinition_cases ho with
    ⟨schema, -, rfl⟩ | ⟨d, hd, ⟨schema, hs, rfl⟩ | ⟨expression, he, ho⟩⟩
  · intro expression he
    obtain ⟨entries, rfl⟩ := ht.embedded schema rfl
    cases he
  · intro expression he
    cases hs.symm.trans he
  · intro expression' he' hschema'
    rw [(Outline.ofText_spec ho).1, Outline.settleOptional_type he] at he'
    obtain rfl := Value.text.inj (Option.some.inj he')
    cases hschema : Outline.isSchema expression with
    | true =>
        rw [Outline.settleOptional_of_isSchema name d hschema] at hschema'
        cases hschema.symm.trans hschema'
    | false =>
        have hend := honce d expression hd he hschema
        rw [← Bool.not_eq_true, Outline.endsIn_trimEnd_iff] at hend ⊢
        rwa [Outline.trim_settleOptional name d hschema]

theorem IsBuilt.tellsRequired {t : DataType} (h : t.IsBuilt) :
    Declaration.TellsRequired t.declaration := by
  induction h with
  | @build bound name definition t h =>
      obtain ⟨o, nested, ho, -, ht⟩ := build_eq_ok_iff.1 h
      obtain ⟨c, hc, -⟩ := (assemble_eq_ok_iff.1 ht).common
      rw [(assemble_eq_ok ht).declaration]
      rcases Outline.ofDefinition_described ho with hd | ⟨schema, -, hd⟩
      · rw [hd] at hc
        exact ⟨_, (Common.read_fields hc).1⟩
      · rw [hd]
        exact .of_absent rfl
  | withParent _ parent ih => simpa using ih
  | withBinding _ bound ih => simpa using ih

/-- The facets that a reference and a twin of it under any name are built from, up to `required`. -/
theorem build_reference {bound bound' : Bool} {name name' target : String} {definition : Value}
    {t u : DataType} (ht : build bound name definition = .ok t)
    (hu : build bound' name' definition = .ok u) (htarget : t.target? = some target) :
    ∃ d expression c, Declaration.normalize definition = .ok d ∧
      d.field? "type" = some (.text expression) ∧ u = .reference c target bound' ∧
      t.declaration = (Outline.settleOptional name d expression).2.1 ∧
      u.declaration = (Outline.settleOptional name' d expression).2.1 := by
  obtain ⟨o, nested, ho, -, ht⟩ := build_eq_ok_iff.1 ht
  obtain ⟨o', nested', ho', -, hu⟩ := build_eq_ok_iff.1 hu
  have hshape : o.shape = .reference target := by
    obtain ⟨name, d, shape⟩ := o
    have hassembly := assemble_eq_ok_iff.1 ht
    cases hassembly with
    | reference hc => rw [Option.some.inj htarget]
    | _ => cases htarget
  obtain ⟨d, expression, hd, he, hshape', hdecl, hdecl'⟩ :=
    Outline.ofDefinition_reference ho ho' hshape
  have hassembly := assemble_eq_ok_iff.1 hu
  rw [hshape'] at hassembly
  have hdecl := (assemble_eq_ok ht).declaration.trans hdecl
  have hdecl' := (assemble_eq_ok hu).declaration.trans hdecl'
  cases hassembly with
  | @reference _ c hc => exact ⟨d, expression, c, hd, he, rfl, hdecl, hdecl'⟩

end DataType

namespace Validation

open Registry

variable {r : Registry}

/-- A recorded supertype has no bearing on which values are accepted. -/
theorem accepts_withParent_iff (hr : r.IsSettled) (hdistinct : (Table.keys r).Nodup) {t : DataType}
    (ht : t.IsBuilt) (htarget : t.target? = none) (parent : String) (v : Value) :
    (t.withParent parent).validate r v = .ok () ↔ t.validate r v = .ok () := by
  refine Matches.accepts_iff hr hdistinct (ht.withParent parent).isFlat ht.isFlat ?_ v
  have hself : Matches r Interchangeable t t := .refl .refl t
  cases hself with
  | scalar henum => exact .scalar henum
  | object henum h => exact .object henum h
  | array henum h => exact .array henum h
  | union henum h => exact .union henum h
  | target => cases htarget
  | untargeted => cases htarget

theorem exists_built (hr : r.IsSettled) (hdistinct : (Table.keys r).Nodup) {t : DataType}
    (h : t.IsBuilt) (ht : t.target? = none) :
    ∃ bound name definition u, build bound name definition = .ok u ∧
      u.declaration = t.declaration ∧ u.target? = none ∧ (t.IsBound → u.IsBound) ∧
      ∀ v, u.validate r v = .ok () ↔ t.validate r v = .ok () := by
  induction h with
  | @build bound name definition t h =>
      exact ⟨bound, name, definition, t, h, rfl, ht, id, fun v => .rfl⟩
  | @withParent t hbuilt parent ih =>
      rw [target?_withParent] at ht
      obtain ⟨bound, name, definition, u, hu, hd, htarget, hbound, haccepts⟩ := ih ht
      refine ⟨bound, name, definition, u, hu, by rwa [declaration_withParent], htarget,
        fun h => hbound ((isBound_withParent_iff ht parent).1 h),
        fun v => (haccepts v).trans ?_⟩
      exact (accepts_withParent_iff hr hdistinct hbuilt ht parent v).symm
  | @withBinding t hbuilt bound ih =>
      rw [target?_withBinding] at ht
      have hsame : t.withBinding bound = t := by
        cases t with
        | reference => cases ht
        | _ => rfl
      rw [hsame]
      exact ih ht

/-- Mappings of the same type that differ in `required` alone are built alike under any names, and
the types match. -/
theorem exists_rebuilt {m m' : Mapping} {name : String} {v : Value} {t : DataType}
    (hv : m.field? "type" = some v) (hv' : m'.field? "type" = some v) (hnull : v.isNull = false)
    (hsame : ∀ s, "type" ≠ s → "required" ≠ s → m.field? s = m'.field? s)
    (hrequired : Declaration.TellsRequired m') (h : build true name (.map m) = .ok t)
    (htarget : t.target? = none) (name' : String) :
    ∃ u, build true name' (.map m') = .ok u ∧ Matches r Interchangeable t u := by
  have hfield : ∀ s, "type" ≠ s → "required" ≠ s → m.field s = m'.field s :=
    fun s htype hreq => by simp only [Mapping.field, hsame s htype hreq]
  obtain ⟨o, nested, ho, hnested, hassembly⟩ := build_eq_ok_iff.1 h
  have hassembly := assemble_eq_ok_iff.1 hassembly
  obtain ⟨o', ho', hshape⟩ := Outline.ofDefinition_map_alike hv hv' hnull
    (hfield "properties" (by decide) (by decide)) (hfield "items" (by decide) (by decide)) ho name'
  obtain ⟨nested', hnested', htwins⟩ := exists_nested_twins hnested hshape true
  have hdecl : ∀ s, "type" ≠ s → "required" ≠ s →
      o.declaration.field? s = o'.declaration.field? s := fun s hs hs' => by
    rw [Outline.ofDefinition_map_field? hv hnull ho hs hs',
      Outline.ofDefinition_map_field? hv' hnull ho' hs hs', hsame s hs hs']
  have hconstraints : Declaration.SameConstraints o.declaration o'.declaration := fun s hs =>
    hdecl s (by rintro rfl; exact hs (by decide)) (by rintro rfl; exact hs (by decide))
  obtain ⟨b, hb⟩ : Declaration.TellsRequired o'.declaration := by
    rcases Outline.ofDefinition_map_cases hv' hnull ho' with ⟨schema, -, rfl⟩ | ⟨e, -, ho'⟩
    · exact hrequired
    · rw [(Outline.ofText_spec ho').1]
      exact hrequired.settleOptional name' e
  obtain ⟨c, hc, -⟩ := hassembly.common
  have hc' : ∃ c', Common.read o'.name (o'.shape.described o'.declaration) = .ok c' := by
    rcases Outline.ofDefinition_described ho with hd | ⟨schema, hembedded, -⟩
    · rcases Outline.ofDefinition_described ho' with hd' | ⟨schema, hembedded, -⟩
      · rw [hd] at hc
        rw [hd']
        exact Common.exists_read hc hdecl hb o'.name
      · cases hembedded
    · cases hembedded
  obtain ⟨u, hassembly'⟩ := hassembly.exists_alike hshape hconstraints hc' nested'
  have hu : build true name' (.map m') = .ok u :=
    build_eq_ok_iff.2 ⟨o', nested', ho', hnested', assemble_eq_ok_iff.2 hassembly'⟩
  exact ⟨u, hu, matches_of_assembly hassembly hassembly' hshape hconstraints htwins htarget
    (build_isBound h) (build_isBound hu)⟩

/-- A type and one that is built from its declaration again match, if nothing that constrains was
laid over it and its references can be looked up. -/
theorem matches_of_again {bound : Bool} {name name' : String} {definition : Value} {m : Mapping}
    {t u : DataType} (ht : build bound name definition = .ok t) (htarget : t.target? = none)
    (hbound : t.IsBound) (hmark : Outline.KeepsUnmarked t.declaration)
    (htype : m.field? "type" = t.declaration.field? "type")
    (hsame : Declaration.SameConstraints t.declaration m)
    (hu : build true name' (.map m) = .ok u) : Matches r Interchangeable t u := by
  obtain ⟨v, hv, hnull, -⟩ := (IsBuilt.build ht).isFaithful
  obtain ⟨o, nested, ho, hnested, hassembly⟩ := build_eq_ok_iff.1 ht
  obtain ⟨o', nested', ho', hnested', hassembly'⟩ := build_eq_ok_iff.1 hu
  have hd := (assemble_eq_ok hassembly).declaration
  have hembedded := (assemble_eq_ok hassembly).embedded
  have hassembly := assemble_eq_ok_iff.1 hassembly
  have hassembly' := assemble_eq_ok_iff.1 hassembly'
  have hconstraints : Declaration.SameConstraints o.declaration o'.declaration := fun s hs => by
    rw [Outline.ofDefinition_map_field? (htype.trans hv) hnull ho'
      (by rintro rfl; exact hs (by decide)) (by rintro rfl; exact hs (by decide)), ← hd, hsame s hs]
  have hfield : ∀ s, s ∉ descriptiveFacets → o.declaration.field s = m.field s := fun s hs => by
    rw [← hd]
    simp only [Mapping.field, hsame s hs]
  rcases Outline.ofDefinition_again ho hembedded (hd ▸ hmark) (hd ▸ htype)
      (fun _ _ => hfield "properties" (by decide)) (hfield "items" (by decide)) ho' with
    hshape | ⟨schema, rfl, hshape'⟩
  · have htwins := forall₂_twins hshape.nested (forall₂_of_mapM hnested) (forall₂_of_mapM hnested')
    exact matches_of_assembly hassembly hassembly' hshape hconstraints htwins htarget hbound
      (build_isBound hu)
  · -- neither has an `enum`
    rw [hshape'] at hassembly'
    cases hassembly with
    | embedded hc =>
        cases hassembly' with
        | json hc' =>
            refine .scalar ?_
            have hread := (Common.read_fields hc).2
            have hnone : Declaration.SameConstraints [] o'.declaration := fun s hs =>
              Eq.trans (by
                have hne : "type" ≠ s := by
                  rintro rfl
                  exact hs (by decide)
                simp [Mapping.field?, Table.get?, hne]) (hconstraints s hs)
            rw [hnone.readOptional (by decide) (by decide), (Common.read_fields hc').2] at hread
            exact (Checked.ok.inj hread).symm

/-- A reference whose facets constrain accepts what a subtype does whose own facets differ from them
in `required` alone. -/
theorem accepts_iff_of_isNarrowed (hr : r.IsSettled) (hdistinct : (Table.keys r).Nodup) {c : Common}
    {target name : String} {own : Mapping} {parent m : DataType} (hget : r.get? target = some parent)
    (hparent : parent.IsBuilt) (hc : (DataType.reference c target true).IsBuilt)
    (hnarrowed : (DataType.reference c target true).IsNarrowed)
    (hcdistinct : Table.Distinct c.declaration) (hown : Table.Distinct own)
    (hfields : ∀ s, "type" ≠ s → "required" ≠ s → own.field? s = c.declaration.field? s)
    (hm : build true name (.map (Declaration.merge parent.declaration own)) = .ok m)
    (hmtarget : m.target? = none) (v : Value) :
    (DataType.reference c target true).validate r v = .ok () ↔ m.validate r v = .ok () := by
  obtain ⟨vtype, hv, hnull, -⟩ := hparent.isFaithful
  have hmerged : ∀ child : Mapping,
      (Declaration.merge parent.declaration child).field? "type" = some vtype := fun child => by
    rwa [Declaration.field?_merge_type]
  have heffective := hr.effective c target
  rw [hget] at heffective
  dsimp only at heffective
  rw [if_pos hnarrowed] at heffective
  obtain ⟨q, hq, hmatches⟩ := exists_rebuilt (r := r) (hmerged own) (hmerged c.declaration) hnull
    (fun s hs hs' => Declaration.field?_merge_congr _ hown hcdistinct hs (hfields s hs hs'))
    (hparent.tellsRequired.merge hc.tellsRequired hcdistinct) hm hmtarget c.name
  rw [accepts_iff_of_effective hr hdistinct (heffective.trans hq) hc.isFlat]
  exact (hmatches.accepts_iff hr hdistinct (build_isFlat hm) (build_isFlat hq) v).symm

/-- A reference whose facets describe only accepts what a subtype does that has no others, as far as
the references of the supertype can be looked up. -/
theorem accepts_iff_of_not_isNarrowed (hr : r.IsSettled) (hdistinct : (Table.keys r).Nodup)
    {c : Common} {target name : String} {own : Mapping} {parent m : DataType}
    (hget : r.get? target = some parent) (hparent : parent.IsBuilt) (hroot : parent.target? = none)
    (hbound : parent.IsBound) (hmark : Outline.KeepsUnmarked parent.declaration)
    (hc : (DataType.reference c target true).IsBuilt)
    (hnarrowed : ¬ (DataType.reference c target true).IsNarrowed) (hown : Table.Distinct own)
    (hfields : ∀ s, "type" ≠ s → "required" ≠ s → own.field? s = c.declaration.field? s)
    (hm : build true name (.map (Declaration.merge parent.declaration own)) = .ok m) (v : Value) :
    (DataType.reference c target true).validate r v = .ok () ↔ m.validate r v = .ok () := by
  have heffective := hr.effective c target
  rw [hget] at heffective
  dsimp only at heffective
  rw [if_neg hnarrowed] at heffective
  rw [accepts_iff_of_effective hr hdistinct heffective hc.isFlat]
  -- the supertype may have been recorded as a subtype itself
  obtain ⟨b, n, definition, u, hu, hud, hutarget, hubound, haccepts⟩ :=
    exists_built hr hdistinct hparent hroot
  rw [← haccepts]
  have hdescribes : ∀ s, s ∉ descriptiveFacets → own.field? s = none := by
    intro s hs
    rw [hfields s (by rintro rfl; exact hs (by decide)) (by rintro rfl; exact hs (by decide))]
    by_contra hsome
    obtain ⟨w, hw⟩ := Option.ne_none_iff_exists'.1 hsome
    refine hnarrowed (List.any_eq_true.2 ⟨_, Mapping.mem_of_field? hw, ?_⟩)
    simpa [isConstraining] using hs
  have hsame : Declaration.SameConstraints u.declaration
      (Declaration.merge parent.declaration own) := fun s hs => by
    rw [hud, Declaration.field?_merge_of_absent _ hown
      (by rintro rfl; exact hs (by decide)) (hdescribes s hs)]
  have hmatches : Matches r Interchangeable u m :=
    matches_of_again hu hutarget (hubound hbound) (hud ▸ hmark)
      (by rw [hud, Declaration.field?_merge_type]) hsame hm
  exact hmatches.accepts_iff hr hdistinct (build_isFlat hu) (build_isFlat hm) v

end Validation

namespace Registry

open Validation

variable {d r : Registry}

/-- Whether no entry keeps a type expression with a mark. -/
def HoldsUnmarkedTypes (d : Registry) : Prop :=
  ∀ name t, d.get? name = some t → Outline.KeepsUnmarked t.declaration

theorem HoldsUnmarked.types (h : d.HoldsUnmarked) : d.HoldsUnmarkedTypes :=
  fun name t hget expression he => (h name t hget).2 expression (Mapping.field_of_field? he)

/-- What an entry settles to keeps a type without a mark. -/
theorem Settles.keepsUnmarked (hd : d.WellFormed) (hmarks : d.HoldsUnmarkedTypes) {name : String}
    {t : DataType} (h : d.Settles name t) : Outline.KeepsUnmarked t.declaration := by
  induction h with
  | own hget _ => exact hmarks _ _ hget
  | inherits hget _ hp hm ih =>
      obtain ⟨v, hv, hnull, -⟩ := (hp.built hd).1.isFaithful
      obtain ⟨o, nested, m, ho, -, ha, rfl⟩ := inheriting_outline hm
      rw [declaration_withParent, ha.declaration]
      refine Outline.ofDefinition_map_keepsUnmarked (by rwa [Declaration.field?_merge_type]) hnull ?_
        ho
      intro expression he
      rw [Declaration.field?_merge_type] at he
      exact ih expression he

/-- Facets written beside a reference accept what the subtype declared by them accepts, whatever the
reference is called: if any of them constrains, always; if they describe only, as far as the
supertype's references can be looked up. -/
theorem inline_accepts_as_declared (h : Populated d r) (ha : r.Applies)
    (hmarks : d.HoldsUnmarkedTypes) {key name name' target : String} {facets : Mapping}
    {bound : Bool} {current p : DataType} (hfacets : Mapping.IsDict facets)
    (hget : d.get? key = some (current.withBinding true))
    (hcurrent : build bound name (.map facets) = .ok current)
    (htarget : current.target? = some target) (hp : build true name' (.map facets) = .ok p)
    (hbound : p.IsNarrowed ∨ ∀ parent, r.applied.get? target = some parent → parent.IsBound) :
    ∃ t, r.applied.get? key = some t ∧
      ∀ v, p.validate r.applied v = .ok () ↔ t.validate r.applied v = .ok () := by
  obtain ⟨hd, hrefines⟩ := h.refines
  have hr : r.applied.IsSettled := ha.isSettled (hrefines.wellFormed hd)
  have hdistinct : (Table.keys r.applied).Nodup := (hrefines.wellFormed hd).applied.distinct
  -- what the two are built from
  obtain ⟨e, expression, c, he, htype, rfl, hcd, hpd⟩ := build_reference hcurrent hp htarget
  have hdict : Mapping.IsDict e := by
    obtain rfl := Except.ok.inj he
    exact Declaration.withType_isDict hfacets
  have hcdict := Outline.settleOptional_isDict hdict name expression
  have hpdict := Outline.settleOptional_isDict hdict name' expression
  rw [← hcd] at hcdict
  rw [← hpd] at hpdict
  have hfields : ∀ s, "type" ≠ s → "required" ≠ s →
      current.declaration.field? s = c.declaration.field? s := fun s hs hs' => by
    rw [hcd, show c.declaration = _ from hpd, Outline.settleOptional_field? _ _ _ hs hs',
      Outline.settleOptional_field? _ _ _ hs hs']
  -- the entry and its supertype
  obtain ⟨t, hs⟩ := ((applies_iff hd).1 ((hrefines.applies_iff hd).1 ha)).1 key (by
    simp [Table.has, hget])
  obtain ⟨parent, hparent, hinherits⟩ := hs.of_refersTo hget (by rwa [target?_withBinding])
  have hgetParent := (hrefines.get?_applied_iff hd ha).2 hparent
  have hbuilt := (hparent.built hd).1
  obtain ⟨m, hm, rfl⟩ := Except.map_eq_ok_iff.1 hinherits
  rw [name_withBinding, declaration_withBinding] at hm
  refine ⟨_, (hrefines.get?_applied_iff hd ha).2 hs, fun v => ?_⟩
  have hmtarget : m.target? = none := by
    have := hs.target?_eq_none hd
    rwa [target?_withParent] at this
  rw [accepts_withParent_iff hr hdistinct (.build hm) hmtarget]
  by_cases hnarrowed : (DataType.reference c target true).IsNarrowed
  · exact accepts_iff_of_isNarrowed hr hdistinct hgetParent hbuilt (.build hp) hnarrowed
      hpdict.distinct hcdict.distinct hfields hm hmtarget v
  · exact accepts_iff_of_not_isNarrowed hr hdistinct hgetParent hbuilt (hparent.target?_eq_none hd)
      (hbound.resolve_left hnarrowed parent hgetParent) (hparent.keepsUnmarked hd hmarks)
      (.build hp) hnarrowed hcdict.distinct hfields hm v

/-- The middle type of the sample, with its facets written inline. -/
theorem inline_accepts_as_declared_car :
    ∃ p t, build true "ride" (.map (withProperty "Vehicle" "seats?" "integer")) = .ok p ∧
      (run [.add van, .add car, .add vehicle]).applied.get? "Car" = some t ∧
      ∀ v, p.validate (run [.add van, .add car, .add vehicle]).applied v = .ok () ↔
        t.validate (run [.add van, .add car, .add vehicle]).applied v = .ok () := by
  obtain ⟨p, hp, hnarrowed⟩ : ∃ p, build true "ride"
      (.map (withProperty "Vehicle" "seats?" "integer")) = .ok p ∧ p.IsNarrowed :=
    ⟨_, Except.eq_ok_get rfl, by decide⟩
  have hcar : build true "Car" (.map (withProperty "Vehicle" "seats?" "integer")) = .ok car.type :=
    Except.eq_ok_get rfl
  obtain ⟨t, ht, haccepts⟩ := inline_accepts_as_declared vehicles_populated vehicles_applies
    vehicles_holdsUnmarked.types (withProperty_isDict "Vehicle" "seats?" "integer").facets
    (show (declared vehicles).get? "Car" = some (car.type.withBinding true) from rfl) hcar rfl hp
    (.inl hnarrowed)
  exact ⟨p, t, hp, ht, haccepts⟩

/-- The facets of a subtype that describe only. -/
def tourFacets : Mapping :=
  [(.text "type", .text "Trip"), (.text "description", .text "A trip back to where it began.")]

theorem tourFacets_isDict : Mapping.IsDict tourFacets :=
  .of_texts ["type", "description"] rfl (by decide)

/-- A subtype of a type that was built without a registry. -/
def tour : Registration := .ofDeclaration "Tour" (.map tourFacets) rfl

/-- The types of a sample in which the supertype cannot look up its references. -/
def tours : List Registration := [trip, vehicle, tour]

theorem trip_build :
    build false "Trip" (.map (withProperty "object" "by" "Vehicle")) = .ok trip.type :=
  Except.eq_ok_get rfl

theorem vehicle_build :
    build true "Vehicle" (.map (withProperty "object" "seats" "number")) = .ok vehicle.type :=
  Except.eq_ok_get rfl

theorem tour_build : build true "Tour" (.map tourFacets) = .ok tour.type :=
  Except.eq_ok_get rfl

theorem tours_isBuilt : ∀ a ∈ tours, a.type.IsBuilt := by
  simp only [tours, List.forall_mem_cons, List.not_mem_nil, false_implies, implies_true, and_true]
  exact ⟨.build trip_build, .build vehicle_build, .build tour_build⟩

theorem tours_holdsUnmarkedTypes : (declared tours).HoldsUnmarkedTypes := by
  refine forall_declared ?_
  simp only [tours, List.forall_mem_cons, List.not_mem_nil, false_implies, implies_true, and_true,
    declaration_withBinding]
  refine ⟨build_keepsUnmarked trip_build ?_, build_keepsUnmarked vehicle_build ?_,
    build_keepsUnmarked tour_build ?_⟩
  all_goals
    intro d expression hd he _
    cases hd
    cases he
    decide

/-- Facets that describe only do not always accept what the subtype declared by them accepts: they
leave the supertype as it was built. -/
theorem not_inline_accepts_always :
    ¬ ∀ (d r : Registry), Populated d r → r.Applies → d.HoldsUnmarkedTypes →
      ∀ (key name name' target : String) (facets : Mapping) (bound : Bool) (current p : DataType),
        Mapping.IsDict facets → d.get? key = some (current.withBinding true) →
          build bound name (.map facets) = .ok current → current.target? = some target →
            build true name' (.map facets) = .ok p →
              ∃ t, r.applied.get? key = some t ∧
                ∀ v, p.validate r.applied v = .ok () ↔ t.validate r.applied v = .ok () := by
  intro hclaim
  obtain ⟨t, ht, haccepts⟩ := hclaim (declared tours) (run [.add trip, .add vehicle, .add tour])
    (run_populated [.add trip, .add vehicle, .add tour] tours_isBuilt (by decide))
    (by decide) tours_holdsUnmarkedTypes "Tour" "Tour" "Tour" "Trip" tourFacets true
    tour.type tour.type tourFacets_isDict rfl tour_build rfl tour_build
  have hdeclared : ((run [.add trip, .add vehicle, .add tour]).applied.get? "Tour").map (fun t =>
      verdict (t.validate (run [.add trip, .add vehicle, .add tour]).applied
        (.map [(.text "by", .map [(.text "seats", .int 4)])]))) = some .accepts := by
    decide
  have hinline : verdict (tour.type.validate (run [.add trip, .add vehicle, .add tour]).applied
      (.map [(.text "by", .map [(.text "seats", .int 4)])])) = .fails := by
    decide
  rw [ht, Option.map_some, Option.some.injEq, verdict_eq_accepts_iff, ← haccepts,
    ← verdict_eq_accepts_iff, hinline] at hdeclared
  cases hdeclared

end Registry

end Raml
