import Raml.Proofs.Declaration.Rereading
import Raml.Proofs.Validation.Depth

/-! # Types built from one declaration

A declaration that is built twice, under names that are marked alike, gives two
types that differ in their names, and in whether their references can be looked
up. Where those of both can be, the two come to the same verdict on every
value: what a reference stands for is built from a merged declaration again,
which is the same for both.
-/

namespace Raml

open DataType Relation

/-! ## Declarations that constrain alike -/

/-- The members of a union are those that were built, unless a list takes their place. -/
theorem DataType.readMembers_congr {d d' : Mapping} (h : d.field? "oneOf" = d'.field? "oneOf")
    {nested members : List DataType} (hm : readMembers d nested = .ok members)
    (nested' : List DataType) :
    readMembers d' nested' = .ok members ∨
      members = nested ∧ readMembers d' nested' = .ok nested' := by
  unfold readMembers at hm ⊢
  rw [← h]
  split at hm
  · exact .inr ⟨(Checked.ok.inj hm).symm, rfl⟩
  · next v hv => exact .inl hm

/-- Whether two declarations agree on all facets that constrain values. -/
def Declaration.SameConstraints (d d' : Mapping) : Prop :=
  ∀ s, s ∉ descriptiveFacets → d.field? s = d'.field? s

namespace Declaration.SameConstraints

variable {d d' : Mapping}

theorem refl (d : Mapping) : SameConstraints d d := fun _ _ => rfl

theorem read (h : SameConstraints d d') {α : Type} {key other : String}
    (hkey : key ∉ descriptiveFacets) (hother : other ∉ descriptiveFacets) (fallback : Option α)
    (kind : Value → Option α) :
    Field.read d key other fallback kind = Field.read d' key other fallback kind := by
  simp only [Field.read, h key hkey, h other hother]

theorem readOptional (h : SameConstraints d d') {α : Type} {key other : String}
    (hkey : key ∉ descriptiveFacets) (hother : other ∉ descriptiveFacets)
    (kind : Value → Option α) :
    Field.readOptional d key other kind = Field.readOptional d' key other kind :=
  h.read hkey hother _ _

theorem readScalar (h : SameConstraints d d') (word : ScalarWord) :
    DataType.readScalar d word = DataType.readScalar d' word := by
  cases word with
  | any | boolean | nil => rfl
  | string | number | integer | file | temporal =>
      simp (disch := decide) only [DataType.readScalar, TextFacets.read, NumberFacets.read,
        FileFacets.read, readFormat, h.readOptional]

theorem objectFacets (h : SameConstraints d d') : ObjectFacets.read d = ObjectFacets.read d' := by
  simp (disch := decide) only [ObjectFacets.read, h.readOptional, h.read]

theorem arrayFacets (h : SameConstraints d d') : ArrayFacets.read d = ArrayFacets.read d' := by
  simp (disch := decide) only [ArrayFacets.read, h.readOptional, h.read]

theorem readMembers (h : SameConstraints d d') {nested members : List DataType}
    (hm : DataType.readMembers d nested = .ok members) (nested' : List DataType) :
    DataType.readMembers d' nested' = .ok members ∨
      members = nested ∧ DataType.readMembers d' nested' = .ok nested' :=
  DataType.readMembers_congr (h "oneOf" (by decide)) hm nested'

end Declaration.SameConstraints

theorem Common.read_fields {name : String} {d : Mapping} {c : Common}
    (h : Common.read name d = .ok c) :
    Field.read d "required" "required" (some true) Field.truth? = .ok c.required ∧
      Field.readOptional d "enum" "enum" Field.items? = .ok c.enum := by
  simp only [Common.read, Checked.seq_eq_ok_iff, Checked.map_eq_ok_iff] at h
  obtain ⟨_, _, ⟨_, _, ⟨_, _, ⟨_, _, ⟨_, _, ⟨_, _, ⟨_, hrequired, rfl⟩, _, rfl⟩, _, rfl⟩, _, rfl⟩,
    _, rfl⟩, _, rfl⟩, henum, rfl⟩ := h
  exact ⟨hrequired, henum⟩

/-- The common part can be read from any mapping whose `required` can be read, if the other facets
are the same. -/
theorem Common.exists_read {name : String} {d d' : Mapping} {c : Common} {b : Bool}
    (h : Common.read name d = .ok c)
    (hsame : ∀ s, "type" ≠ s → "required" ≠ s → d.field? s = d'.field? s)
    (hrequired : Field.read d' "required" "required" (some true) Field.truth? = .ok b)
    (name' : String) : ∃ c', Common.read name' d' = .ok c' := by
  have hread : ∀ {α : Type} {key other : String} {fallback : Option α} {kind : Value → Option α}
      {a : α}, "type" ≠ key → "type" ≠ other → "required" ≠ key → "required" ≠ other →
      Field.read d key other fallback kind = .ok a →
        Field.read d' key other fallback kind = .ok a :=
    fun hkey hother hkey' hother' ha => by
      simpa only [Field.read, hsame _ hkey hkey', hsame _ hother hother'] using ha
  simp only [Common.read, Checked.seq_eq_ok_iff, Checked.map_eq_ok_iff] at h ⊢
  obtain ⟨_, _, ⟨_, _, ⟨_, _, ⟨_, _, ⟨_, _, ⟨_, _, ⟨_, -, rfl⟩, hdefault, rfl⟩, hsample, rfl⟩,
    hsamples, rfl⟩, hdisplay, rfl⟩, hdescription, rfl⟩, henum, rfl⟩ := h
  exact ⟨_, _, _, ⟨_, _, ⟨_, _, ⟨_, _, ⟨_, _, ⟨_, _, ⟨_, hrequired, rfl⟩,
    hread (by decide) (by decide) (by decide) (by decide) hdefault, rfl⟩,
    hread (by decide) (by decide) (by decide) (by decide) hsample, rfl⟩,
    hread (by decide) (by decide) (by decide) (by decide) hsamples, rfl⟩,
    hread (by decide) (by decide) (by decide) (by decide) hdisplay, rfl⟩,
    hread (by decide) (by decide) (by decide) (by decide) hdescription, rfl⟩,
    hread (by decide) (by decide) (by decide) (by decide) henum, rfl⟩

/-- What the facets of any kind of type are read from; a decoded schema has none. -/
def Shape.described (d : Mapping) : Shape → Mapping
  | .embedded _ => []
  | _ => d

theorem Shape.Alike.described {shape shape' : Shape} (h : shape.Alike shape') (d : Mapping) :
    shape'.described d = shape.described d := by
  cases h <;> rfl

namespace Outline

theorem ofExpression_described (word : String) (d : Mapping) :
    (ofExpression word).described d = d := by
  unfold ofExpression
  split
  · rfl
  · split <;> rfl

theorem ofSettled_described {name expression : String} {d : Mapping} {o : Outline}
    (h : ofSettled name d expression = .ok o) :
    o.shape.described o.declaration = o.declaration := by
  cases ofSettled_settlesTo h with
  | plain => simp only [ofExpression_described]
  | _ => rfl

/-- Only a schema that was decoded elsewhere has facets that are not read. -/
theorem ofDefinition_described {name : String} {definition : Value} {o : Outline}
    (h : ofDefinition name definition = .ok o) :
    o.shape.described o.declaration = o.declaration ∨
      ∃ schema, definition = .embedded schema ∧ o.declaration = [(.text "type", schema)] := by
  rcases ofDefinition_cases h with
    ⟨schema, rfl, rfl⟩ | ⟨d, -, ⟨schema, -, rfl⟩ | ⟨expression, -, ho⟩⟩
  · exact .inr ⟨schema, rfl, rfl⟩
  · exact .inl rfl
  · rw [ofText_eq] at ho
    exact .inl (ofSettled_described ho)

end Outline

namespace DataType

/-! ## Assembled types -/

section Assembly

variable {r : Registry} {bound bound' : Bool} {name name' : String} {d d' : Mapping}
  {nested nested' : List DataType} {shape shape' : Shape} {t u : DataType}

theorem IsAssembly.common (h : IsAssembly bound name d nested shape t) :
    ∃ c, Common.read name (shape.described d) = .ok c ∧ c.required = t.required := by
  cases h with
  | scalar hc | object hc | array hc | union hc | reference hc | json hc | xml hc | embedded hc =>
      exact ⟨_, hc, rfl⟩

/-- A shape can be assembled from any declaration that constrains alike and whose common part can
be read. -/
theorem IsAssembly.exists_alike (h : IsAssembly bound name d nested shape t)
    (hshape : shape.Alike shape') (hd : Declaration.SameConstraints d d')
    (hc : ∃ c, Common.read name' (shape'.described d') = .ok c) (nested' : List DataType) :
    ∃ u, IsAssembly bound' name' d' nested' shape' u := by
  obtain ⟨c', hc'⟩ := hc
  cases hshape with
  | items hname =>
      cases h with
      | array _ hf => exact ⟨_, .array hc' (hd.arrayFacets ▸ hf)⟩
  | same =>
      cases h with
      | scalar _ hs => exact ⟨_, .scalar hc' (hd.readScalar _ ▸ hs)⟩
      | object _ hf => exact ⟨_, .object hc' (hd.objectFacets ▸ hf)⟩
      | array _ hf => exact ⟨_, .array hc' (hd.arrayFacets ▸ hf)⟩
      | reference _ => exact ⟨_, .reference hc'⟩
      | json _ => exact ⟨_, .json hc'⟩
      | xml _ => exact ⟨_, .xml hc'⟩
      | union _ hm =>
          rcases hd.readMembers hm nested' with hm' | ⟨-, hm'⟩
          · exact ⟨_, .union hc' hm'⟩
          · exact ⟨_, .union hc' hm'⟩
      | embedded _ => exact ⟨_, .embedded hc'⟩

/-- Types assembled from the same shape and from declarations that constrain alike match if the
types nested in them do. -/
theorem IsAssembly.matches {T : DataType → DataType → Prop}
    (h : IsAssembly bound name d nested shape t)
    (h' : IsAssembly bound' name' d' nested' shape' u) (hshape : shape.Alike shape')
    (hd : Declaration.SameConstraints d d') (hnested : List.Forall₂ T nested nested')
    (hT : ∀ a b, T a b → a.required = b.required) (ht : t.target? = none) :
    Validation.Matches r (fun a b => a = b ∨ T a b) t u := by
  have henum : ∀ {c c' : Common}, Common.read name d = .ok c → Common.read name' d' = .ok c' →
      c.enum = c'.enum := fun hc hc' => by
    have hread := (Common.read_fields hc).2
    rw [hd.readOptional (by decide) (by decide), (Common.read_fields hc').2] at hread
    exact (Checked.ok.inj hread).symm
  have harray : ∀ {c c' : Common} {f f' : ArrayFacets}, Common.read name d = .ok c →
      Common.read name' d' = .ok c' → ArrayFacets.read d = .ok f → ArrayFacets.read d' = .ok f' →
      Validation.Matches r (fun a b => a = b ∨ T a b) (.array c f nested.head?)
        (.array c' f' nested'.head?) := fun hc hc' hf hf' => by
    obtain rfl := Checked.ok.inj (hf.symm.trans (hd.arrayFacets.trans hf'))
    refine .array (henum hc hc') ?_
    cases hnested with
    | nil => exact .none
    | cons hab _ => exact .some (.inr hab)
  cases hshape with
  | items hname =>
      cases h with
      | array hc hf =>
          cases h' with
          | array hc' hf' => exact harray hc hc' hf hf'
  | same =>
      cases h with
      | scalar hc hs =>
          cases h' with
          | scalar hc' hs' =>
              obtain rfl := Checked.ok.inj (hs.symm.trans ((hd.readScalar _).trans hs'))
              exact .scalar (henum hc hc')
      | object hc hf =>
          cases h' with
          | object hc' hf' =>
              obtain rfl := Checked.ok.inj (hf.symm.trans (hd.objectFacets.trans hf'))
              refine .object (henum hc hc') ?_
              refine (Table.forall₂_ofList (Table.forall₂_zip hnested _)).imp fun p q hpq => ?_
              exact ⟨hpq.1, hT _ _ hpq.2, .inr hpq.2⟩
      | array hc hf =>
          cases h' with
          | array hc' hf' => exact harray hc hc' hf hf'
      | union hc hm =>
          cases h' with
          | union hc' hm' =>
              refine .union (henum hc hc') ?_
              rcases hd.readMembers hm nested' with hread | ⟨rfl, hread⟩
              · obtain rfl := Checked.ok.inj (hread.symm.trans hm')
                exact List.forall₂_same.2 fun _ _ => .inl rfl
              · obtain rfl := Checked.ok.inj (hread.symm.trans hm')
                exact hnested.imp fun _ _ => .inr
      | reference _ => cases ht
      | json hc =>
          cases h' with
          | json hc' => exact .scalar (henum hc hc')
      | xml hc =>
          cases h' with
          | xml hc' => exact .scalar (henum hc hc')
      | embedded hc =>
          cases h' with
          | embedded hc' =>
              refine .scalar ?_
              have hread := (Common.read_fields hc).2
              rw [(Common.read_fields hc').2] at hread
              exact (Checked.ok.inj hread).symm

end Assembly

/-! ## Twins -/

/-- Whether two types were built from one declaration, under names that are marked alike. -/
def Twins (t u : DataType) : Prop :=
  ∃ bound bound' name name' definition, MarkedAlike name name' ∧
    build bound name definition = .ok t ∧ build bound' name' definition = .ok u

theorem Twins.symm {t u : DataType} (h : Twins t u) : Twins u t := by
  obtain ⟨bound, bound', name, name', definition, hname, ht, hu⟩ := h
  exact ⟨bound', bound, name', name, definition, hname.symm, hu, ht⟩

/-- Types built from nested declarations under names marked alike are twins. -/
theorem forall₂_twins {bound bound' : Bool} {ps qs : List (String × Value)}
    {nested nested' : List DataType}
    (h : List.Forall₂ (fun p q => MarkedAlike p.1 q.1 ∧ p.2 = q.2) ps qs)
    (hps : List.Forall₂ (fun p t => build bound p.1 p.2 = .ok t) ps nested)
    (hqs : List.Forall₂ (fun q u => build bound' q.1 q.2 = .ok u) qs nested') :
    List.Forall₂ Twins nested nested' := by
  induction h generalizing nested nested' with
  | nil =>
      cases hps
      cases hqs
      exact .nil
  | @cons p q _ _ hpq _ ih =>
      cases hps with
      | cons ht hts =>
          cases hqs with
          | cons hu hus =>
              refine .cons ⟨bound, bound', p.1, q.1, p.2, hpq.1, ht, ?_⟩ (ih hts hus)
              rw [hpq.2]
              exact hu

/-- Twins are assembled from one declaration and outlines that are alike. -/
theorem Twins.assembly {t u : DataType} (h : Twins t u) :
    ∃ bound bound' name name' d shape shape' nested nested', MarkedAlike name name' ∧
      shape.Alike shape' ∧ List.Forall₂ Twins nested nested' ∧
      IsAssembly bound name d nested shape t ∧ IsAssembly bound' name' d nested' shape' u := by
  obtain ⟨bound, bound', name, name', definition, hname, ht, hu⟩ := h
  obtain ⟨o, nested, ho, hnested, ht⟩ := build_eq_ok_iff.1 ht
  obtain ⟨o', nested', ho', hnested', hu⟩ := build_eq_ok_iff.1 hu
  obtain ⟨o'', ho'', hd, hshape, hnames⟩ := Outline.ofDefinition_rename ho hname
  obtain rfl := Except.ok.inj (ho'.symm.trans ho'')
  have hu := assemble_eq_ok_iff.1 hu
  rw [hd] at hu
  exact ⟨bound, bound', o.name, o'.name, o.declaration, o.shape, o'.shape, nested, nested', hnames,
    hshape, forall₂_twins hshape.nested (forall₂_of_mapM hnested) (forall₂_of_mapM hnested'),
    assemble_eq_ok_iff.1 ht, hu⟩

theorem Twins.required {t u : DataType} (h : Twins t u) : t.required = u.required := by
  obtain ⟨bound, bound', name, name', d, shape, shape', nested, nested', -, hshape, -, ht, hu⟩ :=
    h.assembly
  obtain ⟨c, hc, hrequired⟩ := ht.common
  obtain ⟨c', hc', hrequired'⟩ := hu.common
  rw [hshape.described] at hc'
  have hsame := (Common.read_fields hc).1.symm.trans (Common.read_fields hc').1
  rw [← hrequired, ← hrequired', Checked.ok.inj hsame]

theorem Twins.target? {t u : DataType} (h : Twins t u) : t.target? = u.target? := by
  obtain ⟨bound, bound', name, name', d, shape, shape', nested, nested', -, hshape, -, ht, hu⟩ :=
    h.assembly
  cases hshape with
  | items hname =>
      cases ht
      cases hu
      rfl
  | same => cases ht <;> cases hu <;> rfl

theorem Twins.reference {c c' : Common} {target target' : String} {bound bound' : Bool}
    (h : Twins (.reference c target bound) (.reference c' target' bound')) :
    target = target' ∧ c.declaration = c'.declaration ∧ MarkedAlike c.name c'.name := by
  obtain ⟨b, b', name, name', d, shape, shape', nested, nested', hname, hshape, -, ht, hu⟩ :=
    h.assembly
  cases ht with
  | reference hc =>
      cases hshape with
      | same =>
          cases hu with
          | reference hc' =>
              obtain ⟨hcname, -, hcd⟩ := Common.read_eq_ok hc
              obtain ⟨hcname', -, hcd'⟩ := Common.read_eq_ok hc'
              exact ⟨rfl, hcd.trans hcd'.symm, by rwa [hcname, hcname']⟩

/-- A declaration that can be built under a name can be built under one that is marked alike. -/
theorem exists_twin {bound : Bool} {name name' : String} {definition : Value} {t : DataType}
    (h : build bound name definition = .ok t) (hname : MarkedAlike name name') (bound' : Bool) :
    ∃ u, build bound' name' definition = .ok u := by
  -- by weight: what is nested is built from parts of the definition, under names of its own
  generalize hw : definition.weight = w
  induction w using Nat.strongRecOn generalizing name name' definition t with
  | ind w ih =>
      obtain ⟨o, nested, ho, hnested, ht⟩ := build_eq_ok_iff.1 h
      obtain ⟨o', ho', hd, hshape, -⟩ := Outline.ofDefinition_rename ho hname
      obtain ⟨nested', hnested'⟩ : ∃ nested',
          o'.shape.nested.mapM (fun q => build bound' q.1 q.2) = .ok nested' := by
        refine exists_mapM_eq_ok fun q hq => ?_
        obtain ⟨p, hp, hpname, hpq⟩ := exists_of_forall₂_right hshape.nested hq
        obtain ⟨a, -, ha⟩ := exists_of_forall₂_left (forall₂_of_mapM hnested) hp
        rw [← hpq]
        exact ih _ (hw ▸ Outline.weight_lt_of_nested ho hp) ha hpname rfl
      have hassembly := assemble_eq_ok_iff.1 ht
      obtain ⟨c, hc, -⟩ := hassembly.common
      have hc' := Common.exists_read hc (fun _ _ _ => rfl) (Common.read_fields hc).1 o'.name
      rw [← hshape.described] at hc'
      obtain ⟨u, hu⟩ := hassembly.exists_alike hshape (.refl _) hc' nested'
      rw [← hd] at hu
      exact ⟨u, build_eq_ok_iff.2 ⟨o', nested', ho', hnested', assemble_eq_ok_iff.2 hu⟩⟩

/-- What is nested in a shape can be built for one that is alike, and gives twins. -/
theorem exists_nested_twins {bound : Bool} {shape shape' : Shape} {nested : List DataType}
    (h : shape.nested.mapM (fun p => build bound p.1 p.2) = .ok nested)
    (hshape : shape.Alike shape') (bound' : Bool) :
    ∃ nested', shape'.nested.mapM (fun q => build bound' q.1 q.2) = .ok nested' ∧
      List.Forall₂ Twins nested nested' := by
  have hbuilt := forall₂_of_mapM h
  obtain ⟨nested', hnested'⟩ : ∃ nested',
      shape'.nested.mapM (fun q => build bound' q.1 q.2) = .ok nested' := by
    refine exists_mapM_eq_ok fun q hq => ?_
    obtain ⟨p, hp, hpname, hpq⟩ := exists_of_forall₂_right hshape.nested hq
    obtain ⟨a, -, ha⟩ := exists_of_forall₂_left hbuilt hp
    rw [← hpq]
    exact exists_twin ha hpname bound'
  exact ⟨nested', hnested', forall₂_twins hshape.nested hbuilt (forall₂_of_mapM hnested')⟩

/-! ## Bound types -/

def IsBound (t : DataType) : Prop :=
  ∀ c target bound, ReflTransGen Nests t (.reference c target bound) → bound = true

theorem IsBound.of_nests {t u : DataType} (h : t.IsBound) (hu : t.Nests u) : u.IsBound :=
  fun c target bound hreach => h c target bound (.head hu hreach)

theorem isBound_iff_nested {t : DataType} (ht : t.target? = none) :
    t.IsBound ↔ ∀ u, t.Nests u → u.IsBound := by
  refine ⟨fun h u hu => h.of_nests hu, fun h c target bound hreach => ?_⟩
  rcases ReflTransGen.cases_head hreach with rfl | ⟨u, hu, hreach⟩
  · cases ht
  · exact h u hu c target bound hreach

theorem isBound_withParent_iff {t : DataType} (ht : t.target? = none) (parent : String) :
    (t.withParent parent).IsBound ↔ t.IsBound := by
  rw [isBound_iff_nested ht, isBound_iff_nested (by rwa [target?_withParent])]
  simp [Nests]

/-- What is built with a registry at hand is bound. -/
theorem build_isBound {name : String} {definition : Value} {t : DataType}
    (h : build true name definition = .ok t) : t.IsBound := by
  generalize hw : definition.weight = w
  induction w using Nat.strongRecOn generalizing name definition t with
  | ind w ih =>
      intro c target bound hreach
      rcases ReflTransGen.cases_head hreach with rfl | ⟨u, hu, hreach⟩
      · obtain ⟨⟨name', d, shape⟩, nested, -, -, ht⟩ := build_eq_ok_iff.1 h
        cases assemble_eq_ok_iff.1 ht
        rfl
      · rcases build_nests h hu with ⟨name', definition', hlt, hbuild⟩ | ⟨c', rfl⟩
        · exact ih _ (hw ▸ hlt) hbuild rfl c target bound hreach
        · rcases ReflTransGen.cases_head hreach with heq | ⟨u', hu', -⟩
          · cases heq
          · cases hu'

/-! ## Interchangeable types -/

/-- Whether two types are the same, or twins whose references can be looked up. -/
def Interchangeable (t u : DataType) : Prop :=
  t = u ∨ Twins t u ∧ t.IsBound ∧ u.IsBound

theorem Interchangeable.refl (t : DataType) : Interchangeable t t := .inl rfl

theorem Interchangeable.symm {t u : DataType} (h : Interchangeable t u) : Interchangeable u t :=
  h.imp Eq.symm fun ⟨htwins, ht, hu⟩ => ⟨htwins.symm, hu, ht⟩

end DataType

namespace Validation

open Registry

variable {r : Registry}

theorem Matches.of_nested {S T : DataType → DataType → Prop} {t u : DataType}
    (h : Matches r S t u) (ht : t.target? = none)
    (hST : ∀ a b, S a b → t.Nests a → u.Nests b → T a b) : Matches r T t u := by
  cases h with
  | scalar henum => exact .scalar henum
  | @object c c' f ps qs henum h =>
      refine .object henum ((forall₂_mem_mem h).imp fun p q hpq => ?_)
      obtain ⟨hp, hq, hkey, hrequired, hS⟩ := hpq
      exact ⟨hkey, hrequired, hST _ _ hS (List.mem_map_of_mem hp) (List.mem_map_of_mem hq)⟩
  | array henum h =>
      refine .array henum ?_
      cases h with
      | none => exact .none
      | some h => exact .some (hST _ _ h (by simp [Nests, nested]) (by simp [Nests, nested]))
  | union henum h =>
      exact .union henum ((forall₂_mem_mem h).imp fun a b hab => hST _ _ hab.2.2 hab.1 hab.2.1)
  | target => cases ht
  | untargeted => cases ht

/-- Types assembled alike match, if all their references can be looked up. -/
theorem matches_of_assembly {bound bound' : Bool} {name name' : String} {d d' : Mapping}
    {nested nested' : List DataType} {shape shape' : Shape} {t u : DataType}
    (h : IsAssembly bound name d nested shape t)
    (h' : IsAssembly bound' name' d' nested' shape' u) (hshape : shape.Alike shape')
    (hd : Declaration.SameConstraints d d') (hnested : List.Forall₂ Twins nested nested')
    (htarget : t.target? = none) (ht : t.IsBound) (hu : u.IsBound) :
    Matches r Interchangeable t u := by
  refine (h.matches h' hshape hd hnested (fun _ _ => Twins.required) htarget).of_nested htarget ?_
  intro a b hab ha hb
  exact hab.imp_right fun htwins => ⟨htwins, ht.of_nests ha, hu.of_nests hb⟩

theorem verdict_of_ofDeclaration {f : Fault} (h : f.OfDeclaration) :
    verdict (.error f) = .fails := by
  cases hv : verdict (.error f) with
  | fails => rfl
  | accepts => cases verdict_eq_accepts_iff.1 hv
  | rejects =>
      obtain ⟨g, hg, hviolation⟩ := verdict_eq_rejects_iff.1 hv
      obtain rfl := Except.error.inj hg
      exact absurd (family_of_isViolation hviolation) h.ne_validation
  | unfinished => exact absurd (Except.error.inj (verdict_eq_unfinished_iff.1 hv)) h.ne_endless

/-- What is built twice from one declaration, under names marked alike, is interchangeable, or
cannot be built at all. -/
theorem build_interchangeable {name name' : String} (hname : MarkedAlike name name')
    (definition : Value) :
    (∃ t u, build true name definition = .ok t ∧ build true name' definition = .ok u ∧
        Interchangeable t u) ∨
      ∃ f g, build true name definition = .error f ∧ build true name' definition = .error g ∧
        verdict (.error g) = verdict (.error f) := by
  cases ht : build true name definition with
  | ok t =>
      obtain ⟨u, hu⟩ := exists_twin ht hname true
      exact .inl ⟨t, u, rfl, hu, .inr ⟨⟨true, true, name, name', definition, hname, ht, hu⟩,
        build_isBound ht, build_isBound hu⟩⟩
  | error f =>
      cases hu : build true name' definition with
      | ok u =>
          obtain ⟨t, ht'⟩ := exists_twin hu hname.symm true
          rw [ht] at ht'
          cases ht'
      | error g =>
          refine .inr ⟨f, g, rfl, rfl, ?_⟩
          rw [verdict_of_ofDeclaration (build_fault ht), verdict_of_ofDeclaration (build_fault hu)]

/-- Interchangeable types match in a settled registry: what twin references stand for is the same
entry, or built from the same merged declaration. -/
theorem Interchangeable.matches (hr : r.IsSettled) {t u : DataType} (h : Interchangeable t u) :
    Matches r Interchangeable t u := by
  rcases h with rfl | ⟨htwins, ht, hu⟩
  · exact .refl .refl t
  · by_cases htarget : t.target? = none
    · obtain ⟨bound, bound', name, name', d, shape, shape', nested, nested', -, hshape, hnested,
        hassembly, hassembly'⟩ := htwins.assembly
      exact matches_of_assembly hassembly hassembly' hshape (.refl d) hnested htarget ht hu
    · obtain ⟨c, target, bound, rfl⟩ : ∃ c target bound, t = .reference c target bound := by
        cases t with
        | reference c target bound => exact ⟨c, target, bound, rfl⟩
        | _ => exact absurd rfl htarget
      obtain ⟨c', target', bound', rfl⟩ : ∃ c target bound, u = .reference c target bound := by
        rw [htwins.target?] at htarget
        cases u with
        | reference c target bound => exact ⟨c, target, bound, rfl⟩
        | _ => exact absurd rfl htarget
      obtain ⟨rfl, hd, hname⟩ := htwins.reference
      obtain rfl := ht c target bound .refl
      obtain rfl := hu c' target bound' .refl
      have he := hr.effective c target
      have he' := hr.effective c' target
      cases hget : r.get? target with
      | none =>
          rw [hget] at he he'
          exact .untargeted he he' rfl
      | some a =>
          rw [hget] at he he'
          have hsame : (DataType.reference c' target true).IsNarrowed ↔
              (DataType.reference c target true).IsNarrowed := by
            simp only [DataType.IsNarrowed, declaration, common, hd]
          dsimp only at he he'
          -- either both are built from the merged declaration or both stand for the entry
          by_cases hnarrowed : (DataType.reference c target true).IsNarrowed
          · rw [if_pos hnarrowed] at he
            rw [if_pos (hsame.2 hnarrowed), ← hd] at he'
            rcases build_interchangeable hname
                (.map (Declaration.merge a.declaration c.declaration)) with
              ⟨x, y, hx, hy, hxy⟩ | ⟨f, g, hf, hg, hverdict⟩
            · exact .target (he.trans hx) (he'.trans hy) hxy
            · exact .untargeted (he.trans hf) (he'.trans hg) hverdict
          · rw [if_neg hnarrowed] at he
            rw [if_neg (mt hsame.1 hnarrowed)] at he'
            exact .target he he' (.refl a)

theorem Matches.accepts_iff (hr : r.IsSettled) (hdistinct : (Table.keys r).Nodup) {t u : DataType}
    (ht : t.IsFlat) (hu : u.IsFlat) (h : Matches r Interchangeable t u) (v : Value) :
    t.validate r v = .ok () ↔ u.validate r v = .ok () := by
  have hforth : ∀ {x y : DataType}, Matches r Interchangeable x y →
      (∃ n, validateWithin r n x v = .ok ()) → ∃ n, validateWithin r n y v = .ok () := by
    rintro x y hxy ⟨n, hn⟩
    cases n with
    | zero => cases hn
    | succ n =>
        have hborne : BornOut (validateWithin r (n + 1) x v) (validateWithin r (n + 1) y v) :=
          hxy.bornOut fun a b w hab _ =>
            bornOut_of_matches (fun _ _ => Interchangeable.matches hr) (Nat.le_refl n) hab w
        exact ⟨n + 1, hborne.eq_ok hn⟩
  rw [validate_eq_ok_iff hr hdistinct ht, validate_eq_ok_iff hr hdistinct hu]
  exact ⟨hforth h, hforth (h.symm fun _ _ => Interchangeable.symm)⟩

theorem accepts_iff_of_effective (hr : r.IsSettled) (hdistinct : (Table.keys r).Nodup)
    {c : Common} {target : String} {bound : Bool} {u : DataType}
    (h : (DataType.reference c target bound).effective r = .ok u)
    (ht : (DataType.reference c target bound).IsFlat) (v : Value) :
    (DataType.reference c target bound).validate r v = .ok () ↔ u.validate r v = .ok () := by
  rw [validate_eq_ok_iff hr hdistinct ht,
    validate_eq_ok_iff hr hdistinct (hr.effective_built h).1.isFlat]
  have hstep : ∀ n, validateWithin r (n + 1) (.reference c target bound) v =
      validateWithin r n u v := fun n => by
    simp only [validateWithin, h]
    rfl
  constructor
  · rintro ⟨n, hn⟩
    cases n with
    | zero => cases hn
    | succ n => exact ⟨n, (hstep n).symm.trans hn⟩
  · rintro ⟨n, hn⟩
    exact ⟨n + 1, (hstep n).trans hn⟩

end Validation

end Raml
