import Raml.Proofs.Registry.KeptProperties
import Raml.Proofs.Validation.Acceptance
import Raml.Proofs.Validation.Specialising

/-! # Narrowed types

A subtype whose own facets can only restrict, where its supertype leaves them
out, and whose own properties are new, asks for all that its supertype asks
for. What it accepts its supertype accepts, as long as the supertype's
references can be looked up and merging leaves the inherited properties as they
are: the subtype lists its own in a mapping or leaves them out, and none of
their keys is equal to an inherited one.
-/

namespace Raml

open DataType Relation

/-! ## Facets that can only restrict -/

namespace Declaration

/-- The facets that can only restrict values, each with its other spelling. -/
def restrictingFacets : List (String × String) :=
  [("pattern", "pattern"), ("minLength", "min_length"), ("maxLength", "max_length"),
    ("minimum", "minimum"), ("maximum", "maximum"), ("multipleOf", "multiple_of"),
    ("enum", "enum"), ("minItems", "min_items"), ("maxItems", "max_items"),
    ("uniqueItems", "unique_items"), ("minProperties", "min_properties"),
    ("maxProperties", "max_properties")]

/-- Whether a facet neither describes nor restricts, and is not the properties. -/
def IsOther (s : String) : Prop :=
  s ∉ descriptiveFacets ∧ s ≠ "properties" ∧ ∀ f ∈ restrictingFacets, s ≠ f.1 ∧ s ≠ f.2

instance (s : String) : Decidable (IsOther s) := by
  unfold IsOther
  infer_instance

/-- Whether of the facets of a declaration those that restrict are left out or the same as in
another one, and all others that constrain values are the same, the properties apart. -/
structure Loosens (d d' : Mapping) : Prop where
  restricting : ∀ f ∈ restrictingFacets, (d.field? f.1 = none ∧ d.field? f.2 = none) ∨
    (d'.field? f.1 = d.field? f.1 ∧ d'.field? f.2 = d.field? f.2)
  other : ∀ s, IsOther s → d'.field? s = d.field? s

namespace Loosens

variable {d d' : Mapping}

theorem congr {d'' : Mapping} (h : Loosens d d')
    (hsame : ∀ s, "type" ≠ s → "required" ≠ s → d''.field? s = d'.field? s) : Loosens d d'' where
  restricting f hf := by
    have hne : ∀ f ∈ restrictingFacets,
        ("type" ≠ f.1 ∧ "required" ≠ f.1) ∧ "type" ≠ f.2 ∧ "required" ≠ f.2 := by decide
    obtain ⟨⟨htype, hrequired⟩, htype', hrequired'⟩ := hne f hf
    rw [hsame _ htype hrequired, hsame _ htype' hrequired']
    exact h.restricting f hf
  other s hs := by
    rw [hsame s (by rintro rfl; exact hs.1 (by decide)) (by rintro rfl; exact hs.1 (by decide)),
      h.other s hs]

theorem readOptional (h : Loosens d d') {α : Type} {key other : String} {kind : Value → Option α}
    {x y : Option α} (hx : Field.readOptional d key other kind = .ok x)
    (hy : Field.readOptional d' key other kind = .ok y)
    (hf : (key, other) ∈ restrictingFacets) : NoStricter x y := by
  rcases h.restricting _ hf with ⟨hkey, hother⟩ | ⟨hkey, hother⟩
  · rw [Field.readOptional_absent hkey hother] at hx
    obtain rfl := Checked.ok.inj hx
    exact .left_out y
  · simp only [Field.readOptional, Field.read, hkey, hother] at hx hy
    obtain rfl := Checked.ok.inj (hx.symm.trans hy)
    exact .refl x

theorem read (h : Loosens d d') {α : Type} {key other : String} (hkey : IsOther key)
    (hother : IsOther other) (fallback : Option α) (kind : Value → Option α) :
    Field.read d' key other fallback kind = Field.read d key other fallback kind := by
  simp only [Field.read, h.other key hkey, h.other other hother]

theorem text (h : Loosens d d') {f g : TextFacets} (hf : TextFacets.read d = .ok f)
    (hg : TextFacets.read d' = .ok g) : f.NoStricter g := by
  simp only [TextFacets.read, Checked.seq_eq_ok_iff, Checked.map_eq_ok_iff] at hf hg
  obtain ⟨_, _, ⟨_, _, ⟨_, hpattern, rfl⟩, hleast, rfl⟩, hmost, rfl⟩ := hf
  obtain ⟨_, _, ⟨_, _, ⟨_, hpattern', rfl⟩, hleast', rfl⟩, hmost', rfl⟩ := hg
  exact ⟨h.readOptional hpattern hpattern' (by decide), h.readOptional hleast hleast' (by decide),
    h.readOptional hmost hmost' (by decide)⟩

theorem number (h : Loosens d d') {f g : NumberFacets} (hf : NumberFacets.read d = .ok f)
    (hg : NumberFacets.read d' = .ok g) : f.NoStricter g := by
  simp only [NumberFacets.read, Checked.seq_eq_ok_iff, Checked.map_eq_ok_iff] at hf hg
  obtain ⟨_, _, ⟨_, _, ⟨_, _, ⟨_, hmin, rfl⟩, hmax, rfl⟩, hmultiple, rfl⟩, hformat, rfl⟩ := hf
  obtain ⟨_, _, ⟨_, _, ⟨_, _, ⟨_, hmin', rfl⟩, hmax', rfl⟩, hmultiple', rfl⟩, hformat', rfl⟩ := hg
  rw [Field.readOptional, h.read (by decide) (by decide)] at hformat'
  exact ⟨h.readOptional hmin hmin' (by decide), h.readOptional hmax hmax' (by decide),
    h.readOptional hmultiple hmultiple' (by decide),
    Checked.ok.inj (hformat.symm.trans hformat')⟩

theorem file (h : Loosens d d') {f g : FileFacets} (hf : FileFacets.read d = .ok f)
    (hg : FileFacets.read d' = .ok g) : f.NoStricter g := by
  simp only [FileFacets.read, Checked.seq_eq_ok_iff, Checked.map_eq_ok_iff] at hf hg
  obtain ⟨_, _, ⟨_, _, ⟨_, -, rfl⟩, hleast, rfl⟩, hmost, rfl⟩ := hf
  obtain ⟨_, _, ⟨_, _, ⟨_, -, rfl⟩, hleast', rfl⟩, hmost', rfl⟩ := hg
  exact ⟨h.readOptional hleast hleast' (by decide), h.readOptional hmost hmost' (by decide)⟩

theorem object (h : Loosens d d') {f g : ObjectFacets} (hf : ObjectFacets.read d = .ok f)
    (hg : ObjectFacets.read d' = .ok g) : f.NoStricter g := by
  simp only [ObjectFacets.read, Checked.seq_eq_ok_iff, Checked.map_eq_ok_iff] at hf hg
  obtain ⟨_, _, ⟨_, _, ⟨_, _, ⟨_, _, ⟨_, hleast, rfl⟩, hmost, rfl⟩, hopen, rfl⟩, -, rfl⟩, -, rfl⟩ :=
    hf
  obtain ⟨_, _, ⟨_, _, ⟨_, _, ⟨_, _, ⟨_, hleast', rfl⟩, hmost', rfl⟩, hopen', rfl⟩, -, rfl⟩, -,
    rfl⟩ := hg
  rw [h.read (by decide) (by decide)] at hopen'
  exact ⟨h.readOptional hleast hleast' (by decide), h.readOptional hmost hmost' (by decide),
    Checked.ok.inj (hopen.symm.trans hopen')⟩

theorem array (h : Loosens d d') {f g : ArrayFacets} (hf : ArrayFacets.read d = .ok f)
    (hg : ArrayFacets.read d' = .ok g) : f.NoStricter g := by
  simp only [ArrayFacets.read, Checked.seq_eq_ok_iff, Checked.map_eq_ok_iff] at hf hg
  obtain ⟨_, _, ⟨_, _, ⟨_, hleast, rfl⟩, hmost, rfl⟩, hunique, rfl⟩ := hf
  obtain ⟨_, _, ⟨_, _, ⟨_, hleast', rfl⟩, hmost', rfl⟩, hunique', rfl⟩ := hg
  refine ⟨h.readOptional hleast hleast' (by decide), h.readOptional hmost hmost' (by decide),
    fun hset => ?_⟩
  rcases h.restricting ("uniqueItems", "unique_items") (by decide) with
    ⟨hkey, hother⟩ | ⟨hkey, hother⟩
  · rw [Field.read_absent hkey hother] at hunique
    rw [← Checked.ok.inj hunique] at hset
    cases hset
  · simp only [Field.read, hkey, hother] at hunique hunique'
    rwa [Checked.ok.inj (hunique.symm.trans hunique')] at hset

theorem scalar (h : Loosens d d') {word : ScalarWord} {s t : Scalar}
    (hs : DataType.readScalar d word = .ok s) (ht : DataType.readScalar d' word = .ok t) :
    s.NoStricter t := by
  cases word with
  | any | boolean | nil =>
      obtain rfl := Checked.ok.inj hs
      obtain rfl := Checked.ok.inj ht
      exact .same _
  | string =>
      obtain ⟨f, hf, rfl⟩ := (Checked.map_eq_ok_iff _ _ _).1 hs
      obtain ⟨g, hg, rfl⟩ := (Checked.map_eq_ok_iff _ _ _).1 ht
      exact .string (h.text hf hg)
  | number =>
      obtain ⟨f, hf, rfl⟩ := (Checked.map_eq_ok_iff _ _ _).1 hs
      obtain ⟨g, hg, rfl⟩ := (Checked.map_eq_ok_iff _ _ _).1 ht
      exact .number (h.number hf hg)
  | integer =>
      obtain ⟨f, hf, rfl⟩ := (Checked.map_eq_ok_iff _ _ _).1 hs
      obtain ⟨g, hg, rfl⟩ := (Checked.map_eq_ok_iff _ _ _).1 ht
      exact .integer (h.number hf hg)
  | file =>
      obtain ⟨f, hf, rfl⟩ := (Checked.map_eq_ok_iff _ _ _).1 hs
      obtain ⟨g, hg, rfl⟩ := (Checked.map_eq_ok_iff _ _ _).1 ht
      exact .file (h.file hf hg)
  | temporal kind =>
      obtain ⟨format, hformat, rfl⟩ := (Checked.map_eq_ok_iff _ _ _).1 hs
      obtain ⟨format', hformat', rfl⟩ := (Checked.map_eq_ok_iff _ _ _).1 ht
      rw [readFormat, Field.readOptional, h.read (by decide) (by decide)] at hformat'
      obtain rfl := Checked.ok.inj (hformat.symm.trans hformat')
      exact .same _

theorem enum (h : Loosens d d') {name name' : String} {c c' : Common}
    (hc : Common.read name d = .ok c) (hc' : Common.read name' d' = .ok c') :
    NoStricter c.enum c'.enum :=
  h.readOptional (Common.read_fields hc).2 (Common.read_fields hc').2 (by decide)

end Loosens

end Declaration

/-! ## Types built from such declarations -/

namespace DataType

open Declaration

variable {bound bound' : Bool} {name name' : String} {d d' : Mapping}
  {nested nested' : List DataType} {shape shape' : Shape} {t u : DataType}

/-- A type assembled from a declaration that loosens another one makes no other requirements than
what is assembled from that in the same shape; objects are compared by their properties instead. -/
theorem IsAssembly.noStricter {T : DataType → DataType → Prop}
    (h : IsAssembly bound name d nested shape t)
    (h' : IsAssembly bound' name' d' nested' shape' u) (hshape : shape.Alike shape')
    (hd : Loosens d d') (hnested : List.Forall₂ T nested nested') (htarget : t.target? = none)
    (hobject : t.kind ≠ .object) : t.NoStricter (fun a b => a = b ∨ T a b) u := by
  have harray : ∀ {c c' : Common} {f g : ArrayFacets}, Common.read name d = .ok c →
      Common.read name' d' = .ok c' → ArrayFacets.read d = .ok f → ArrayFacets.read d' = .ok g →
      (DataType.array c f nested.head?).NoStricter (fun a b => a = b ∨ T a b)
        (.array c' g nested'.head?) := fun hc hc' hf hg => by
    refine .array (hd.enum hc hc') (hd.array hf hg) ?_
    cases hnested with
    | nil => exact .none
    | cons hab _ => exact .some (.inr hab)
  cases hshape with
  | items hname =>
      cases h with
      | array hc hf =>
          cases h' with
          | array hc' hg => exact harray hc hc' hf hg
  | same =>
      cases h with
      | scalar hc hs =>
          cases h' with
          | scalar hc' ht => exact .scalar (hd.enum hc hc') (hd.scalar hs ht)
      | object => exact absurd rfl hobject
      | array hc hf =>
          cases h' with
          | array hc' hg => exact harray hc hc' hf hg
      | union hc hm =>
          cases h' with
          | union hc' hm' =>
              refine .union (hd.enum hc hc') ?_
              rcases readMembers_congr (hd.other "oneOf" (by decide)).symm hm nested' with
                hread | ⟨rfl, hread⟩
              · obtain rfl := Checked.ok.inj (hread.symm.trans hm')
                exact List.forall₂_same.2 fun _ _ => .inl rfl
              · obtain rfl := Checked.ok.inj (hread.symm.trans hm')
                exact hnested.imp fun _ _ => .inr
      | reference => cases htarget
      | json hc =>
          cases h' with
          | json hc' => exact .scalar (hd.enum hc hc') (.same _)
      | xml hc =>
          cases h' with
          | xml hc' => exact .scalar (hd.enum hc hc') (.same _)
      | embedded hc =>
          cases h' with
          | embedded hc' =>
              have hsame := (Common.read_fields hc).2.symm.trans (Common.read_fields hc').2
              exact .scalar (Checked.ok.inj hsame ▸ .refl _) (.same _)

theorem NoStricter.of_nested {S T : DataType → DataType → Prop} (h : t.NoStricter S u)
    (hST : ∀ a b, S a b → t.Nests a → u.Nests b → T a b) : t.NoStricter T u := by
  cases h with
  | scalar henum hs => exact .scalar henum hs
  | object henum hf hproperties hclosed =>
      refine .object henum hf (fun key a ha => ?_) hclosed
      obtain ⟨b, hb, hrequired, hS⟩ := hproperties key a ha
      exact ⟨b, hb, hrequired, hST a b hS (List.mem_map_of_mem ha) (List.mem_map_of_mem hb)⟩
  | array henum hf h =>
      refine .array henum hf ?_
      cases h with
      | none => exact .none
      | some h => exact .some (hST _ _ h (by simp [Nests, nested]) (by simp [Nests, nested]))
  | union henum h =>
      exact .union henum
        ((forall₂_mem_mem h).imp fun a b hab => hST _ _ hab.2.2 hab.1 hab.2.1)

/-- Whether an object lets no property pass that it does not declare. -/
def IsClosed : DataType → Prop
  | .object _ f _ => f.additionalProperties = false
  | _ => False

@[simp] theorem isClosed_withParent (t : DataType) (parent : String) :
    (t.withParent parent).IsClosed ↔ t.IsClosed := by
  cases t <;> rfl

theorem NoStricter.withParent_left {S : DataType → DataType → Prop} (h : t.NoStricter S u)
    (parent : String) : (t.withParent parent).NoStricter S u := by
  cases h with
  | scalar henum hs => exact .scalar henum hs
  | object henum hf hproperties hclosed => exact .object henum hf hproperties hclosed
  | array henum hf h => exact .array henum hf h
  | union henum h => exact .union henum h

/-- What a subtype's merged declaration keeps of its supertype: the type, all facets but such as
restrict and are new, and the properties, to which a closed object adds none. -/
structure IsKeptBy (t : DataType) (m : Mapping) : Prop where
  type : m.field? "type" = t.declaration.field? "type"
  facets : Loosens t.declaration m
  properties : t.kind = .object → ∀ property e,
    lastNamed (Declaration.properties t.declaration) property = some e →
      lastNamed (Declaration.properties m) property = some e
  closed : t.IsClosed → Declaration.properties m = Declaration.properties t.declaration

theorem IsKeptBy.of_withParent {m : Mapping} {parent : String}
    (h : (t.withParent parent).IsKeptBy m) : t.IsKeptBy m where
  type := by simpa using h.type
  facets := by simpa using h.facets
  properties := by simpa using h.properties
  closed := by simpa using h.closed

theorem build_object_read {definition : Value} {c : Common} {f : ObjectFacets}
    {ps : List (String × DataType)} (h : build bound name definition = .ok (.object c f ps)) :
    Common.read c.name c.declaration = .ok c ∧ ObjectFacets.read c.declaration = .ok f := by
  obtain ⟨⟨name', d, shape⟩, nested, -, -, ha⟩ := build_eq_ok_iff.1 h
  cases assemble_eq_ok_iff.1 ha with
  | object hc hf =>
      obtain ⟨hname, -, hd⟩ := Common.read_eq_ok hc
      rw [hname, hd]
      exact ⟨hc, hf⟩

/-- An object that keeps the properties of another one asks for at least as much. -/
theorem build_object_noStricter {definition definition' : Value} {c c' : Common}
    {f g : ObjectFacets} {ps qs : List (String × DataType)}
    (ht : build bound name definition = .ok (.object c f ps))
    (hu : build true name' definition' = .ok (.object c' g qs))
    (hbound : (DataType.object c f ps).IsBound) (hd : Loosens c.declaration c'.declaration)
    (hkept : ∀ property e, lastNamed (properties c.declaration) property = some e →
      lastNamed (properties c'.declaration) property = some e)
    (hclosed : f.additionalProperties = false →
      properties c'.declaration = properties c.declaration) :
    (DataType.object c f ps).NoStricter Interchangeable (.object c' g qs) := by
  obtain ⟨hc, hf⟩ := build_object_read ht
  obtain ⟨hc', hg⟩ := build_object_read hu
  obtain ⟨built, hbuilt, rfl⟩ := build_object ht
  obtain ⟨built', hbuilt', rfl⟩ := build_object hu
  refine .object (hd.enum hc hc') (hd.object hf hg) (fun key a ha => ?_)
    fun hadditional key hkey => ?_
  · have hrel := get?_ofList_builtFrom hbuilt key
    rw [Table.get?_of_mem (Table.distinct_ofList built) ha] at hrel
    obtain ⟨e, he, hea⟩ := exists_of_rel_right hrel
    have hrel' := get?_ofList_builtFrom hbuilt' key
    rw [hkept key e he] at hrel'
    obtain ⟨b, hb, heb⟩ := exists_of_rel hrel'
    have htwins : Twins a b := ⟨bound, true, _, _, _, .refl _, hea, heb⟩
    obtain ⟨key', hkey', hmem⟩ := Table.mem_of_get? hb
    rw [beq_iff_eq] at hkey'
    exact ⟨b, hkey' ▸ hmem, htwins.required,
      .inr ⟨htwins, hbound.of_nests (List.mem_map_of_mem ha), build_isBound heb⟩⟩
  · rw [← Table.get?_isSome_iff] at hkey ⊢
    obtain ⟨b, hb⟩ := Option.isSome_iff_exists.1 hkey
    have hrel' := get?_ofList_builtFrom hbuilt' key
    rw [hb, hclosed hadditional] at hrel'
    obtain ⟨e, he, -⟩ := exists_of_rel_right hrel'
    have hrel := get?_ofList_builtFrom hbuilt key
    rw [he] at hrel
    obtain ⟨a, ha, -⟩ := exists_of_rel hrel
    exact Option.isSome_iff_exists.2 ⟨a, ha⟩

/-- A type makes no other requirements than one that is built from a mapping that keeps what it
was built from, if its references can be looked up. -/
theorem build_noStricter {definition : Value} {m : Mapping}
    (ht : build bound name definition = .ok t) (htarget : t.target? = none) (hbound : t.IsBound)
    (hmark : Outline.KeepsUnmarked t.declaration) (hkept : t.IsKeptBy m)
    (hu : build true name' (.map m) = .ok u) : t.NoStricter Interchangeable u := by
  obtain ⟨v, hv, hnull, hkind⟩ := (IsBuilt.build ht).isFaithful
  obtain ⟨o, nested, ho, hnested, hassembly⟩ := build_eq_ok_iff.1 ht
  obtain ⟨o', nested', ho', hnested', hassembly'⟩ := build_eq_ok_iff.1 hu
  have hdecl := (assemble_eq_ok hassembly).declaration
  have hdecl' := (assemble_eq_ok hassembly').declaration
  have hfield : ∀ s, "type" ≠ s → "required" ≠ s → u.declaration.field? s = m.field? s :=
    fun s hs hs' => hdecl' ▸
      Outline.ofDefinition_map_field? (hkept.type.trans hv) hnull ho' hs hs'
  have hloosens : Loosens t.declaration u.declaration := hkept.facets.congr hfield
  by_cases hobject : t.kind = .object
  · have hobject' : u.kind = .object := by
      rw [(assemble_eq_ok hassembly').kind, ← hobject, ← hkind]
      exact Outline.ofDefinition_map_kind (hkept.type.trans hv) hnull (by simp [hkind, hobject]) ho'
    have hproperties : Declaration.properties u.declaration = Declaration.properties m := by
      simp only [Declaration.properties, Mapping.field, hfield "properties" (by decide) (by decide)]
    have hlast := hkept.properties hobject
    have hclosed := hkept.closed
    rw [← hproperties] at hlast hclosed
    cases t with
    | object c f ps =>
        cases u with
        | object c' g qs => exact build_object_noStricter ht hu hbound hloosens hlast hclosed
        | scalar c' s => cases s <;> cases hobject'
        | _ => cases hobject'
    | scalar c s => cases s <;> cases hobject
    | _ => cases hobject
  · have hproperties : ∀ ps, o.shape = .object ps →
        o.declaration.field "properties" = m.field "properties" := fun ps hps =>
      absurd ((assemble_eq_ok hassembly).kind.trans (by rw [hps]; rfl)) hobject
    have hitems : o.declaration.field "items" = m.field "items" := by
      rw [← hdecl]
      simp only [Mapping.field, hkept.facets.other "items" (by decide)]
    have hembedded := (assemble_eq_ok hassembly).embedded
    rw [hdecl, hdecl'] at hloosens
    have hassembly := assemble_eq_ok_iff.1 hassembly
    have hassembly' := assemble_eq_ok_iff.1 hassembly'
    rcases Outline.ofDefinition_again ho hembedded (hdecl ▸ hmark) (hdecl ▸ hkept.type) hproperties
        hitems ho' with hshape | ⟨schema, rfl, hshape'⟩
    · have htwins :=
        forall₂_twins hshape.nested (forall₂_of_mapM hnested) (forall₂_of_mapM hnested')
      refine (hassembly.noStricter hassembly' hshape hloosens htwins htarget hobject).of_nested ?_
      exact fun a b hab ha hb => hab.imp_right fun htwins =>
        ⟨htwins, hbound.of_nests ha, (build_isBound hu).of_nests hb⟩
    · -- neither has an `enum` that is asked for
      rw [hshape'] at hassembly'
      cases hassembly with
      | embedded hc =>
          cases hassembly' with
          | json hc' =>
              have hnone := (Common.read_fields hc).2
              rw [Field.readOptional_absent rfl rfl] at hnone
              exact .scalar (Checked.ok.inj hnone ▸ .left_out _) (.same _)

theorem IsBuilt.noStricter {m : Mapping} (ht : t.IsBuilt) (htarget : t.target? = none)
    (hbound : t.IsBound) (hmark : Outline.KeepsUnmarked t.declaration) (hkept : t.IsKeptBy m)
    (hu : DataType.build true name' (.map m) = .ok u) : t.NoStricter Interchangeable u := by
  induction ht with
  | build ht => exact build_noStricter ht htarget hbound hmark hkept hu
  | withParent _ parent ih =>
      rw [target?_withParent] at htarget
      rw [declaration_withParent] at hmark
      exact (ih htarget ((isBound_withParent_iff htarget parent).1 hbound) hmark
        hkept.of_withParent).withParent_left parent
  | @withBinding t _ bound ih =>
      rw [target?_withBinding] at htarget
      have hsame : t.withBinding bound = t := by
        cases t with
        | reference => cases htarget
        | _ => rfl
      rw [hsame] at hbound hmark hkept ⊢
      exact ih htarget hbound hmark hkept

end DataType

namespace Validation

variable {r : Registry}

/-- What is accepted is accepted by a type that makes no other requirements. -/
theorem accepts_of_noStricter (hr : r.IsSettled) (hdistinct : (Table.keys r).Nodup)
    {t u : DataType} (ht : t.IsFlat) (hu : u.IsFlat) (h : t.NoStricter Interchangeable u)
    {v : Value} (hv : u.validate r v = .ok ()) : t.validate r v = .ok () := by
  rw [validate_eq_ok_iff hr hdistinct ht]
  obtain ⟨n, hn⟩ := (validate_eq_ok_iff hr hdistinct hu).1 hv
  cases n with
  | zero => cases hn
  | succ n =>
      exact ⟨n + 1, validateWithin_of_noStricter h (fun a b w hab =>
        bornOut_of_matches (fun _ _ => Interchangeable.matches hr) (Nat.le_refl n) hab.symm w) hn⟩

end Validation

/-! ## Narrowing subtypes -/

namespace Declaration

theorem forall_hasField {own : Mapping} {P : String → Prop} (names : List String)
    (hkeys : Table.keys own = names.map .text) (h : ∀ s ∈ names, P s) :
    ∀ s, own.hasField s = true → P s := by
  intro s hs
  rw [Mapping.hasField, Table.has_eq_any, hkeys] at hs
  obtain ⟨k, hk, heq⟩ := List.any_eq_true.1 hs
  obtain ⟨s', hs', rfl⟩ := List.mem_map.1 hk
  rw [Value.beq_text] at heq
  exact Value.text.inj heq ▸ h s' hs'

/-- Whether the facets of an entry only narrow its supertype: such as do not describe either restrict
and are left out by the supertype under both spellings, or are properties under names that it does
not have, if it is not closed. -/
structure Narrows (parent : DataType) (own : Mapping) : Prop where
  facets : ∀ s, own.hasField s = true → s ∈ descriptiveFacets ∨ s = "properties" ∨
    ∃ f ∈ restrictingFacets, (s = f.1 ∨ s = f.2) ∧
      parent.declaration.hasField f.1 = false ∧ parent.declaration.hasField f.2 = false
  properties : ∀ k ∈ Table.keys (properties own), ¬ parent.HasProperty (propertyName k)
  closed : parent.IsClosed → Declaration.properties own = []

variable {parent : DataType} {own : Mapping}

/-- A name is a spelling of one restricting facet at most. -/
theorem restrictingFacets_unique : ∀ f ∈ restrictingFacets, ∀ g ∈ restrictingFacets,
    ∀ s, (s = f.1 ∨ s = f.2) → (s = g.1 ∨ s = g.2) → f = g := by
  have hunique : ∀ f ∈ restrictingFacets, ∀ g ∈ restrictingFacets,
      (f.1 = g.1 ∨ f.1 = g.2 ∨ f.2 = g.1 ∨ f.2 = g.2) → f = g := by
    decide
  rintro f hf g hg s (rfl | rfl) (hs | hs)
  · exact hunique f hf g hg (.inl hs)
  · exact hunique f hf g hg (.inr (.inl hs))
  · exact hunique f hf g hg (.inr (.inr (.inl hs)))
  · exact hunique f hf g hg (.inr (.inr (.inr hs)))

theorem not_mem_descriptiveFacets : ∀ f ∈ restrictingFacets, ∀ s, (s = f.1 ∨ s = f.2) →
    s ∉ descriptiveFacets ∧ s ≠ "properties" := by
  have hnames : ∀ f ∈ restrictingFacets, (f.1 ∉ descriptiveFacets ∧ f.1 ≠ "properties") ∧
      f.2 ∉ descriptiveFacets ∧ f.2 ≠ "properties" := by
    decide
  rintro f hf s (rfl | rfl)
  · exact (hnames f hf).1
  · exact (hnames f hf).2

theorem field?_eq_none {m : Mapping} {s : String} (h : m.hasField s = false) :
    m.field? s = none := by
  simpa [Mapping.hasField, Mapping.field?, Table.has] using h

theorem Narrows.left_out (h : Narrows parent own) {f : String × String}
    (hf : f ∈ restrictingFacets) {s : String} (hs : s = f.1 ∨ s = f.2)
    (hown : own.hasField s = true) :
    parent.declaration.field? f.1 = none ∧ parent.declaration.field? f.2 = none := by
  obtain ⟨hdescribes, hproperties⟩ := not_mem_descriptiveFacets f hf s hs
  rcases h.facets s hown with hs' | hs' | ⟨g, hg, hsg, hnone, hnone'⟩
  · exact absurd hs' hdescribes
  · exact absurd hs' hproperties
  · obtain rfl := restrictingFacets_unique f hf g hg s hs hsg
    exact ⟨field?_eq_none hnone, field?_eq_none hnone'⟩

theorem Narrows.loosens (h : Narrows parent own) (hown : Table.Distinct own) :
    Loosens parent.declaration (merge parent.declaration own) where
  restricting f hf := by
    have habsent : ∀ s, (s = f.1 ∨ s = f.2) → own.hasField s = false →
        (merge parent.declaration own).field? s = parent.declaration.field? s := fun s hs hs' =>
      field?_merge_of_absent _ hown
        (by rintro rfl; exact (not_mem_descriptiveFacets f hf _ hs).1 (by decide))
        (field?_eq_none hs')
    cases hkey : own.hasField f.1 with
    | true => exact .inl (h.left_out hf (.inl rfl) hkey)
    | false =>
        cases hother : own.hasField f.2 with
        | true => exact .inl (h.left_out hf (.inr rfl) hother)
        | false => exact .inr ⟨habsent f.1 (.inl rfl) hkey, habsent f.2 (.inr rfl) hother⟩
  other s hs := by
    refine field?_merge_of_absent _ hown (by rintro rfl; exact hs.1 (by decide))
      (field?_eq_none ?_)
    by_contra hset
    rcases h.facets s (by simpa using hset) with hs' | hs' | ⟨f, hf, rfl | rfl, -⟩
    · exact hs.1 hs'
    · exact hs.2.1 hs'
    · exact (hs.2.2 f hf).1 rfl
    · exact (hs.2.2 f hf).2 rfl

theorem lastNamed_merge_of_new {parent child : Mapping} (hp : IsDict parent) (hc : IsDict child)
    (hlists : ListsProperties child)
    (hkeys : ∀ k ∈ Table.keys (properties child), ∀ k' ∈ Table.keys (properties parent),
      (k == k') = false)
    {name : String} {e : Value × Value} (he : lastNamed (properties parent) name = some e)
    (hnew : ∀ k ∈ Table.keys (properties child), propertyName k ≠ name) :
    lastNamed (properties (merge parent child)) name = some e := by
  have hnone : lastNamed ((properties child).filter fun e => !(properties parent).has e.1) name =
      none := by
    cases hlast : lastNamed ((properties child).filter fun e => !(properties parent).has e.1) name with
    | none => rfl
    | some e' =>
        obtain ⟨hmem, hname⟩ := lastNamed_eq_some hlast
        exact absurd hname (hnew _ (List.mem_map_of_mem (List.mem_filter.1 hmem).1))
  have hget : Table.get? (properties child) e.1 = none := (Table.get?_eq_none_iff _ e.1).2
    fun k hk => hkeys k hk e.1 (List.mem_map_of_mem (lastNamed_eq_some he).1)
  rw [properties_merge_of_listed hc hlists, lastNamed_overlay_eq_or hp.properties hc.properties,
    hnone, he]
  simp [hget]

/-- No properties of its own add nothing, and the place of none is taken by none. -/
theorem properties_merge_of_none {parent child : Mapping} (hc : IsDict child)
    (hlists : ListsProperties child ∨ properties parent = []) (h : properties child = []) :
    properties (merge parent child) = properties parent := by
  by_cases hlisted : ListsProperties child
  · rw [properties_merge_of_listed hc hlisted, h, Table.overlay_nil]
  · rw [properties_merge_of_unlisted hc.facets.distinct hlisted,
      hlists.resolve_left hlisted]

def LeavesProperties (parent : DataType) (own : Mapping) : Prop :=
  parent.kind = .object → ListsProperties own ∨ ∀ property, ¬ parent.HasProperty property

/-- Whether no key that an entry lists properties under is equal to one of its supertype's. -/
def HasNewKeys (parent : DataType) (own : Mapping) : Prop :=
  parent.kind = .object → ∀ k ∈ Table.keys (properties own),
    ∀ k' ∈ Table.keys (properties parent.declaration), (k == k') = false

end Declaration

namespace DataType

open Declaration

/-- What narrows a supertype keeps what it has, unless it empties or overwrites its properties. -/
theorem isKeptBy_merge {parent : DataType} {own : Mapping} (hbuilt : parent.IsBuilt)
    (hp : Declaration.IsDict parent.declaration) (hown : Declaration.IsDict own)
    (h : Narrows parent own) (hleaves : LeavesProperties parent own)
    (hkeys : HasNewKeys parent own) : parent.IsKeptBy (merge parent.declaration own) where
  type := by rw [field?_merge_type]
  facets := h.loosens hown.facets.distinct
  properties hobject property e he := by
    obtain ⟨hmem, hname⟩ := lastNamed_eq_some he
    have hproperty : parent.HasProperty property :=
      (hbuilt.hasProperty_iff hobject _).2 ⟨e.1, List.mem_map_of_mem hmem, hname⟩
    have hlists := (hleaves hobject).resolve_right fun hnone => hnone property hproperty
    refine lastNamed_merge_of_new hp hown hlists (hkeys hobject) he ?_
    rintro k hk rfl
    exact h.properties k hk hproperty
  closed hclosed := by
    have hobject : parent.kind = .object := by
      cases parent with
      | object => rfl
      | _ => cases hclosed
    refine properties_merge_of_none hown ((hleaves hobject).imp_right fun hnone => ?_)
      (h.closed hclosed)
    refine List.eq_nil_iff_forall_not_mem.2 fun e he => hnone (propertyName e.1) ?_
    exact (hbuilt.hasProperty_iff hobject _).2 ⟨e.1, List.mem_map_of_mem he, rfl⟩

end DataType

namespace Registry

open Declaration Validation

variable {d r : Registry}

/-- Whether a registration is of a built type whose declaration a document can decode to and whose
type has no mark. -/
structure Registration.IsRegular (a : Registration) : Prop where
  built : a.type.IsBuilt
  dict : Declaration.IsDict a.type.declaration
  unmarked : Outline.KeepsUnmarked a.type.declaration

theorem Registration.IsRegular.of_declaration {a : Registration} {own : Mapping}
    {expression : String} (hbuilt : a.type.IsBuilt) (hown : a.type.declaration = own)
    (hdict : Declaration.IsDict own) (htype : own.field? "type" = some (.text expression))
    (hmark : Text.endsIn '?' (Text.trimEnd expression) = false) : a.IsRegular where
  built := hbuilt
  dict := hown ▸ hdict
  unmarked := hown ▸ .of_type htype hmark

theorem declared_holdsDicts {added : List Registration} (h : ∀ a ∈ added, a.IsRegular) :
    (declared added).HoldsDicts :=
  forall_declared fun a ha => by
    rw [declaration_withBinding]
    exact (h a ha).dict

theorem declared_holdsUnmarkedTypes {added : List Registration} (h : ∀ a ∈ added, a.IsRegular) :
    (declared added).HoldsUnmarkedTypes :=
  forall_declared fun a ha => by
    rw [declaration_withBinding]
    exact (h a ha).unmarked

theorem vehicle_isRegular : vehicle.IsRegular :=
  .of_declaration (.build vehicle_build) rfl (withProperty_isDict "object" "seats" "number") rfl rfl

/-- A subtype with a property of its own, and a bound on their number. -/
def coachFacets : Mapping :=
  [(.text "type", .text "Vehicle"), (.text "minProperties", .int 2),
    (.text "properties", .map [(.text "driver", .text "string")])]

def coach : Registration := .ofDeclaration "Coach" (.map coachFacets) rfl

theorem coach_isRegular : coach.IsRegular :=
  .of_declaration (Registration.ofDeclaration_isBuilt _ _ _)
    (show coach.type.declaration = coachFacets from rfl)
    ⟨.of_texts ["type", "minProperties", "properties"] rfl (by decide),
      .of_texts ["driver"] rfl (by decide)⟩ rfl rfl

theorem coach_narrows : Narrows vehicle.type coachFacets where
  facets := forall_hasField ["type", "minProperties", "properties"] rfl (by decide)
  properties := by decide
  closed := nofun

/-- What a narrowing subtype accepts its supertype accepts, as long as the supertype's references
can be looked up and, if it is an object, merging leaves its properties as they are: the subtype
lists its own or leaves them out, under keys that are not equal to inherited ones. -/
theorem narrowing_is_sound (h : Populated d r) (ha : r.Applies) (hdicts : d.HoldsDicts)
    (hmarks : d.HoldsUnmarkedTypes) {name target : String} {current parent t : DataType}
    (hget : d.get? name = some current) (htarget : current.target? = some target)
    (hp : r.applied.get? target = some parent) (ht : r.applied.get? name = some t)
    (hnarrows : Narrows parent current.declaration) (hbound : parent.IsBound)
    (hleaves : LeavesProperties parent current.declaration)
    (hkeys : HasNewKeys parent current.declaration) {v : Value}
    (hv : t.validate r.applied v = .ok ()) : parent.validate r.applied v = .ok () := by
  obtain ⟨hd, hrefines⟩ := h.refines
  have hr : r.applied.IsSettled := ha.isSettled (hrefines.wellFormed hd)
  have hdistinct : (Table.keys r.applied).Nodup := (hrefines.wellFormed hd).applied.distinct
  have hs := (hrefines.get?_applied_iff hd ha).1 ht
  obtain ⟨parent', hparent, hinherits⟩ := hs.of_refersTo hget htarget
  obtain rfl := hparent.unique ((hrefines.get?_applied_iff hd ha).1 hp)
  have hbuilt := (hparent.built hd).1
  have hroot := hparent.target?_eq_none hd
  obtain ⟨m, hm, rfl⟩ := Except.map_eq_ok_iff.1 hinherits
  have hmtarget : m.target? = none := by
    have := hs.target?_eq_none hd
    rwa [target?_withParent] at this
  rw [accepts_withParent_iff hr hdistinct (.build hm) hmtarget] at hv
  have hkept := isKeptBy_merge hbuilt (hparent.isDict hd hdicts) (hdicts name current hget) hnarrows
    hleaves hkeys
  exact accepts_of_noStricter hr hdistinct hbuilt.isFlat (IsBuilt.build hm).isFlat
    (hbuilt.noStricter hroot hbound (hparent.keepsUnmarked hd hmarks) hkept hm) hv

theorem narrowing_is_sound_coach : ∃ parent t,
    (run [.add vehicle, .add coach]).applied.get? "Vehicle" = some parent ∧
      (run [.add vehicle, .add coach]).applied.get? "Coach" = some t ∧
      t.validate (run [.add vehicle, .add coach]).applied
        (.map [(.text "seats", .int 4), (.text "driver", .text "Ann")]) = .ok () ∧
      parent.validate (run [.add vehicle, .add coach]).applied
        (.map [(.text "seats", .int 4), (.text "driver", .text "Ann")]) = .ok () := by
  have hregular : ∀ a ∈ [vehicle, coach], a.IsRegular := by
    simp [vehicle_isRegular, coach_isRegular]
  have haccepts : ((run [.add vehicle, .add coach]).applied.get? "Coach").map (fun t =>
      verdict (t.validate (run [.add vehicle, .add coach]).applied
        (.map [(.text "seats", .int 4), (.text "driver", .text "Ann")]))) = some .accepts := by
    decide
  obtain ⟨t, ht, hv⟩ := Option.map_eq_some_iff.1 haccepts
  have hp : (run [.add vehicle, .add coach]).applied.get? "Vehicle" = some vehicle.type := rfl
  have hv := verdict_eq_accepts_iff.1 hv
  refine ⟨_, t, hp, ht, hv, ?_⟩
  refine narrowing_is_sound
    (run_populated [.add vehicle, .add coach] (fun a ha => (hregular a ha).built) (by decide))
    (by decide) (declared_holdsDicts hregular) (declared_holdsUnmarkedTypes hregular)
    (show (declared [vehicle, coach]).get? "Coach" = some (coach.type.withBinding true) from rfl)
    rfl hp ht coach_narrows (build_isBound vehicle_build) (fun _ => .inl ?_) (fun _ => ?_) hv
  · intro v hv
    obtain rfl := Option.some.inj hv
    exact ⟨_, rfl⟩
  · decide

/-! ## Why the conditions stand -/

/-- Whether what a narrowing subtype accepts its supertype accepts, under a condition on the two. -/
def SoundUnder (condition : DataType → Mapping → Prop) : Prop :=
  ∀ (d r : Registry), Populated d r → r.Applies → d.HoldsDicts → d.HoldsUnmarkedTypes →
    ∀ (name target : String) (current parent t : DataType), d.get? name = some current →
      current.target? = some target → r.applied.get? target = some parent →
        r.applied.get? name = some t → Narrows parent current.declaration →
          condition parent current.declaration →
            ∀ v, t.validate r.applied v = .ok () → parent.validate r.applied v = .ok ()

/-- A condition does not do if in a sample that meets it the supertype does not accept a value. -/
theorem not_soundUnder {condition : DataType → Mapping → Prop} (added : List Registration)
    (name : String) (parent current : DataType) (v : Value) {target : String}
    (hregular : ∀ a ∈ added, a.IsRegular) (hdistinct : (added.map Registration.name).Nodup)
    (ha : (run (added.map .add)).Applies)
    (hget : (declared added).get? name = some current) (htarget : current.target? = some target)
    (hp : (run (added.map .add)).applied.get? target = some parent)
    (hnarrows : Narrows parent current.declaration)
    (hcondition : condition parent current.declaration)
    (haccepts : ((run (added.map .add)).applied.get? name).map (fun t =>
      verdict (t.validate (run (added.map .add)).applied v)) = some .accepts)
    (hnot : verdict (parent.validate (run (added.map .add)).applied v) ≠ .accepts) :
    ¬ SoundUnder condition := by
  intro hclaim
  obtain ⟨t, ht, hv⟩ := Option.map_eq_some_iff.1 haccepts
  have hregistrations : registrations (added.map .add) = added := by
    rw [registrations, List.filterMap_map]
    exact List.filterMap_some
  have hpopulated := run_populated (added.map .add)
    (fun a ha => (hregular a (hregistrations ▸ ha)).built) (by rwa [hregistrations])
  rw [hregistrations] at hpopulated
  exact hnot (verdict_eq_accepts_iff.2 (hclaim _ _ hpopulated ha (declared_holdsDicts hregular)
    (declared_holdsUnmarkedTypes hregular) name target current parent t hget htarget hp ht hnarrows
    hcondition v (verdict_eq_accepts_iff.1 hv)))

theorem emptied_isRegular : emptied.IsRegular :=
  .of_declaration (Registration.ofDeclaration_isBuilt _ _ _) rfl emptiedFacets_isDict rfl rfl

theorem emptied_narrows : Narrows vehicle.type emptiedFacets where
  facets := forall_hasField ["type", "properties"] rfl (by decide)
  properties := nofun
  closed := nofun

theorem trip_isRegular : trip.IsRegular :=
  .of_declaration (.build trip_build) rfl (withProperty_isDict "object" "by" "Vehicle") rfl rfl

theorem tour_isRegular : tour.IsRegular :=
  .of_declaration (.build tour_build) (show tour.type.declaration = tourFacets from rfl)
    ⟨tourFacets_isDict, .nil⟩ rfl rfl

theorem tour_narrows : Narrows trip.type tourFacets where
  facets := forall_hasField ["type", "description"] rfl (by decide)
  properties := nofun
  closed := nofun

/-- A declaration with one property, under a key that is not a text. -/
def withKey (type : String) (key : Value) (propertyType : String) : Mapping :=
  [(.text "type", .text type), (.text "properties", .map [(key, .text propertyType)])]

theorem withKey_isDict (type : String) {key : Value} (hkey : key.isPlain = true)
    (propertyType : String) : Declaration.IsDict (withKey type key propertyType) where
  facets := .of_texts ["type", "properties"] rfl (by decide)
  properties := by
    refine ⟨fun k hk => ?_, List.pairwise_singleton _ _⟩
    obtain rfl := List.mem_singleton.1 hk
    exact .plain hkey

def ranking : Registration :=
  .ofDeclaration "Ranking" (.map (withKey "object" (.int 1) "string")) rfl

/-- A subtype with a property under a truth value, which is equal to one. -/
def result : Registration :=
  .ofDeclaration "Result" (.map (withKey "Ranking" (.bool true) "integer")) rfl

theorem ranking_build :
    build true "Ranking" (.map (withKey "object" (.int 1) "string")) = .ok ranking.type :=
  Except.eq_ok_get rfl

theorem ranking_isRegular : ranking.IsRegular :=
  .of_declaration (.build ranking_build) rfl (withKey_isDict "object" rfl "string") rfl rfl

theorem result_isRegular : result.IsRegular :=
  .of_declaration (Registration.ofDeclaration_isBuilt _ _ _) rfl
    (withKey_isDict "Ranking" rfl "integer") rfl rfl

theorem result_narrows :
    Narrows ranking.type (withKey "Ranking" (.bool true) "integer") where
  facets := forall_hasField ["type", "properties"] rfl (by decide)
  properties := by decide
  closed := nofun

/-- Narrowing alone is not sound, nor is it under any two of the three conditions: a subtype that
empties its supertype's properties, one whose supertype cannot look up a reference and one that
writes over a property of another name each accept what their supertype does not. -/
theorem not_narrowing_is_sound_always :
    ¬ SoundUnder (fun parent own => parent.IsBound ∧ HasNewKeys parent own) ∧
      ¬ SoundUnder (fun parent own => LeavesProperties parent own ∧ HasNewKeys parent own) ∧
      ¬ SoundUnder (fun parent own => parent.IsBound ∧ LeavesProperties parent own) := by
  refine ⟨?_, ?_, ?_⟩
  · exact not_soundUnder [emptied, vehicle] "Car" vehicle.type (emptied.type.withBinding true)
      (.map []) (by simp [emptied_isRegular, vehicle_isRegular]) (by decide) (by decide)
      rfl rfl rfl emptied_narrows ⟨build_isBound vehicle_build, fun _ => nofun⟩ (by decide)
      (by decide)
  · exact not_soundUnder tours "Tour" trip.type (tour.type.withBinding true)
      (.map [(.text "by", .map [(.text "seats", .int 4)])])
      (by simp [tours, trip_isRegular, vehicle_isRegular, tour_isRegular]) (by decide)
      (by decide) rfl rfl rfl tour_narrows
      ⟨fun _ => .inl nofun, fun _ => nofun⟩ (by decide) (by decide)
  · exact not_soundUnder [ranking, result] "Result" ranking.type (result.type.withBinding true)
      (.map [(.text "1", .int 5)])
      (by simp [ranking_isRegular, result_isRegular]) (by decide) (by decide)
      rfl rfl rfl result_narrows
      ⟨build_isBound ranking_build, fun _ => .inl fun v hv => ⟨_, (Option.some.inj hv).symm⟩⟩
      (by decide) (by decide)

end Registry

end Raml
