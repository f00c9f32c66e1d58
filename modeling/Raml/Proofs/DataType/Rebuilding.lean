import Raml.Proofs.DataType.Building

/-! # Types built again

A subtype is built anew from its supertype's declaration with its own laid over
it. The kind of a built type can be read off the type that its declaration
keeps, and merging keeps that type; so every subtype has its supertype's kind
and is a reference only if the supertype is one. Where nothing is marked as
optional, the merged declaration is kept whole.
-/

namespace Raml

namespace DataType

/-! ## Changes of the common part -/

section Common

variable (t : DataType) (parent : String) (bound : Bool)

@[simp] theorem kind_withParent : (t.withParent parent).kind = t.kind := by cases t <;> rfl

@[simp] theorem declaration_withParent : (t.withParent parent).declaration = t.declaration := by
  cases t <;> rfl

@[simp] theorem name_withParent : (t.withParent parent).name = t.name := by cases t <;> rfl

@[simp] theorem parent_withParent : (t.withParent parent).parent = some parent := by cases t <;> rfl

@[simp] theorem nested_withParent : (t.withParent parent).nested = t.nested := by cases t <;> rfl

@[simp] theorem target?_withParent : (t.withParent parent).target? = t.target? := by cases t <;> rfl

@[simp] theorem kind_withBinding : (t.withBinding bound).kind = t.kind := by cases t <;> rfl

@[simp] theorem declaration_withBinding : (t.withBinding bound).declaration = t.declaration := by
  cases t <;> rfl

@[simp] theorem name_withBinding : (t.withBinding bound).name = t.name := by cases t <;> rfl

@[simp] theorem target?_withBinding : (t.withBinding bound).target? = t.target? := by
  cases t <;> rfl

end Common

theorem kind_eq_reference_iff (t : DataType) :
    t.kind = .reference ↔ ∃ c target bound, t = .reference c target bound := by
  cases t with
  | scalar c s => cases s <;> simp [kind, Scalar.kind]
  | _ => simp [kind]

theorem kind_ne_reference_iff (t : DataType) : t.kind ≠ .reference ↔ t.target? = none := by
  rw [ne_eq, kind_eq_reference_iff]
  cases t <;> simp [target?]

/-! ## Built types -/

/-- What building a declaration gives, with a supertype or a binding recorded later. -/
inductive IsBuilt : DataType → Prop
  | build {bound : Bool} {name : String} {definition : Value} {t : DataType}
      (h : DataType.build bound name definition = .ok t) : IsBuilt t
  | withParent {t : DataType} (h : IsBuilt t) (parent : String) : IsBuilt (t.withParent parent)
  | withBinding {t : DataType} (h : IsBuilt t) (bound : Bool) : IsBuilt (t.withBinding bound)

def IsFaithful (t : DataType) : Prop :=
  ∃ v, t.declaration.field? "type" = some v ∧ v.isNull = false ∧ Outline.typeKind v = t.kind

theorem IsBuilt.isFaithful {t : DataType} (h : IsBuilt t) : t.IsFaithful := by
  induction h with
  | @build bound name definition t h =>
      obtain ⟨o, nested, ho, -, ht⟩ := build_eq_ok h
      rcases Outline.ofDefinition_kind ho with ⟨schema, hshape, hd⟩ | ⟨v, hv, hnull, hkind⟩
      · obtain ⟨entries, rfl⟩ := ht.embedded schema hshape
        refine ⟨.map entries, ?_, rfl, ?_⟩
        · rw [ht.declaration, hd]
          simp [Mapping.field?, Table.get?]
        · rw [ht.kind, hshape]
          rfl
      · exact ⟨v, ht.declaration ▸ hv, hnull, hkind.symm.trans ht.kind.symm⟩
  | withParent _ parent ih => simpa [IsFaithful] using ih
  | withBinding _ bound ih => simpa [IsFaithful] using ih

/-! ## Inheriting -/

/-- An entry built anew from its supertype, which is recorded. -/
def inheriting (parentName : String) (parent current : DataType) : Except Fault DataType :=
  (build true current.name (.map (Declaration.merge parent.declaration current.declaration))).map
    (withParent parentName)

section Inheriting

variable {parentName : String} {parent current t : DataType}

theorem inheriting_isBuilt (h : inheriting parentName parent current = .ok t) : t.IsBuilt := by
  obtain ⟨m, hm, rfl⟩ := Except.map_eq_ok_iff.1 h
  exact (IsBuilt.build hm).withParent parentName

theorem inheriting_parent (h : inheriting parentName parent current = .ok t) :
    t.parent = some parentName := by
  obtain ⟨m, -, rfl⟩ := Except.map_eq_ok_iff.1 h
  exact parent_withParent m parentName

theorem inheriting_fault {f : Fault} (h : inheriting parentName parent current = .error f) :
    f.OfDeclaration :=
  build_fault (Except.map_eq_error_iff.1 h)

theorem inheriting_outline (h : inheriting parentName parent current = .ok t) :
    ∃ o nested m, Outline.ofDefinition current.name
        (.map (Declaration.merge parent.declaration current.declaration)) = .ok o ∧
      o.shape.nested.mapM (fun p => build true p.1 p.2) = .ok nested ∧ Assembled o nested m ∧
      t = m.withParent parentName := by
  obtain ⟨m, hm, rfl⟩ := Except.map_eq_ok_iff.1 h
  obtain ⟨o, nested, ho, hnested, ha⟩ := build_eq_ok hm
  exact ⟨o, nested, m, ho, hnested, ha, rfl⟩

/-- A subtype has its supertype's kind, unless that is a reference. -/
theorem inheriting_kind (hp : parent.IsFaithful) (hk : parent.kind ≠ .reference)
    (h : inheriting parentName parent current = .ok t) : t.kind = parent.kind := by
  obtain ⟨v, hv, hnull, htype⟩ := hp
  obtain ⟨o, nested, m, ho, -, ha, rfl⟩ := inheriting_outline h
  rw [kind_withParent, ha.kind, ← htype]
  exact Outline.ofDefinition_map_kind (by rwa [Declaration.field?_merge_type]) hnull
    (htype ▸ hk) ho

theorem inheriting_field? (hp : parent.IsFaithful)
    (h : inheriting parentName parent current = .ok t) {s : String} (htype : "type" ≠ s)
    (hrequired : "required" ≠ s) :
    t.declaration.field? s =
      (Declaration.merge parent.declaration current.declaration).field? s := by
  obtain ⟨v, hv, hnull, -⟩ := hp
  obtain ⟨o, nested, m, ho, -, ha, rfl⟩ := inheriting_outline h
  rw [declaration_withParent, ha.declaration]
  exact Outline.ofDefinition_map_field? (by rwa [Declaration.field?_merge_type]) hnull ho htype
    hrequired

theorem inheriting_properties (hp : parent.IsFaithful)
    (h : inheriting parentName parent current = .ok t) :
    Declaration.properties t.declaration =
      Declaration.properties (Declaration.merge parent.declaration current.declaration) := by
  simp only [Declaration.properties, Mapping.field,
    inheriting_field? hp h (s := "properties") (by decide) (by decide)]

theorem inheriting_isDict (hp : parent.IsFaithful) (hpd : Declaration.IsDict parent.declaration)
    (hcd : Declaration.IsDict current.declaration)
    (h : inheriting parentName parent current = .ok t) : Declaration.IsDict t.declaration where
  facets := by
    obtain ⟨v, hv, hnull, -⟩ := hp
    obtain ⟨o, nested, m, ho, -, ha, rfl⟩ := inheriting_outline h
    rw [declaration_withParent, ha.declaration]
    exact Outline.ofDefinition_map_isDict (by rwa [Declaration.field?_merge_type]) hnull
      (hpd.merge hcd).facets ho
  properties := by
    rw [inheriting_properties hp h]
    exact (hpd.merge hcd).properties

/-- Without a mark the merged declaration is kept whole. -/
theorem inheriting_declaration (hp : parent.IsFaithful)
    (hu : Outline.IsUnmarked current.name (parent.declaration.field "type"))
    (h : inheriting parentName parent current = .ok t) :
    t.declaration = Declaration.merge parent.declaration current.declaration := by
  obtain ⟨v, hv, hnull, -⟩ := hp
  obtain ⟨o, nested, m, ho, -, ha, rfl⟩ := inheriting_outline h
  rw [Mapping.field_of_field? hv] at hu
  rw [declaration_withParent, ha.declaration]
  exact Outline.ofDefinition_map_of_unmarked (by rwa [Declaration.field?_merge_type]) hnull hu ho

theorem inheriting_object {c : Common} {f : ObjectFacets} {properties : List (String × DataType)}
    (hp : parent.IsFaithful)
    (h : inheriting parentName parent current = .ok (.object c f properties)) :
    ∃ built, List.Forall₂ (BuiltFrom true)
        (Declaration.properties (Declaration.merge parent.declaration current.declaration)) built ∧
      properties = Table.ofList built := by
  have hproperties := inheriting_properties hp h
  obtain ⟨m, hm, ht⟩ := Except.map_eq_ok_iff.1 h
  cases m with
  | object c' f' properties' =>
      cases ht
      obtain ⟨built, hbuilt, hlist⟩ := build_object hm
      rw [← hproperties]
      exact ⟨built, hbuilt, hlist⟩
  | _ => cases ht

end Inheriting

end DataType

end Raml
