import Raml.Proofs.Registry.Populating

/-! # The nearest declarer

What a settled entry holds under a facet is what the first name of its lineage
declares that declares the facet at all. The type is the exception, which is
that of the oldest ancestor, and so is `properties`, where the rule holds for
each property. One step lays the facets of an entry over those of its settled
target; along a lineage, the nearest declaration stays on top.
-/

namespace Raml

def Declaration.ListsProperties (d : Mapping) : Prop :=
  ∀ v, d.field? "properties" = some v → ∃ own, v = .map own

/-- Whether the name and the type that a type keeps carry no mark of being optional. -/
def DataType.IsUnmarked (t : DataType) : Prop :=
  Outline.IsUnmarked t.name (t.declaration.field "type")

/-- Building leaves no mark of a name and a type expression that have at most one each. -/
theorem DataType.build_isUnmarked {bound : Bool} {name : String} {definition : Value}
    {t : DataType} (h : DataType.build bound name definition = .ok t)
    (hm : Outline.MarkedOnce name definition) : t.IsUnmarked := by
  obtain ⟨o, nested, ho, -, ht⟩ := DataType.build_eq_ok h
  rw [DataType.IsUnmarked, ht.name, ht.declaration]
  rcases Outline.ofDefinition_isUnmarked ho hm with ⟨schema, rfl⟩ | hu
  · obtain ⟨entries, rfl⟩ := ht.embedded schema rfl
    have hname : Text.endsIn '?' "schema" = false := by decide
    exact ⟨hname, fun expression he => by cases he⟩
  · exact hu

namespace Registry

variable {d r : Registry} {α : Type}

def nearest (d : Registry) (names : List String) (find : DataType → Option α) : Option α :=
  names.findSome? fun name => (d.get? name).bind find

theorem nearest_cons {name : String} {t : DataType} (h : d.get? name = some t)
    (names : List String) (find : DataType → Option α) :
    d.nearest (name :: names) find = (find t).or (d.nearest names find) := by
  rw [nearest, List.findSome?_cons, h]
  cases hf : find t <;> simp [nearest, hf]

def HoldsDicts (d : Registry) : Prop :=
  ∀ name t, d.get? name = some t → Declaration.IsDict t.declaration

/-- Whether no entry keeps a mark of being optional. -/
def HoldsUnmarked (d : Registry) : Prop :=
  ∀ name t, d.get? name = some t → t.IsUnmarked

/-- Whether a type has what its lineage declares, each facet from the nearest declarer. -/
structure IsNearest (d : Registry) (names : List String) (t : DataType) : Prop where
  /-- The kind and the type are those of the oldest ancestor. -/
  root : ∃ root, names.getLast?.bind d.get? = some root ∧ root.kind ≠ .reference ∧
    t.kind = root.kind ∧ t.declaration.field? "type" = root.declaration.field? "type"
  facets : ∀ key, key ≠ .text "type" → key ≠ .text "properties" →
    t.declaration.get? key = d.nearest names fun u => u.declaration.get? key
  properties :
    (∀ name ∈ names, ∀ u, d.get? name = some u → Declaration.ListsProperties u.declaration) →
      Declaration.ListsProperties t.declaration ∧
        ∀ key, (Declaration.properties t.declaration).get? key =
          d.nearest names fun u => (Declaration.properties u.declaration).get? key

end Registry

namespace Declaration

theorem properties_merge_of_listed {parent child : Mapping} (hc : IsDict child)
    (h : ListsProperties child) :
    properties (merge parent child) = Table.overlay (properties parent) (properties child) := by
  cases hv : child.field? "properties" with
  | none => rw [properties_merge_of_absent hc hv, properties_eq_nil_of_absent hv, Table.overlay_nil]
  | some v =>
      obtain ⟨own, rfl⟩ := h v hv
      rw [properties_merge hc hv, properties_eq_of_field? hv]

/-- Each property of a merged declaration is the subtype's own or else the supertype's. -/
theorem get?_properties_merge {parent child : Mapping} (hp : IsDict parent) (hc : IsDict child)
    (h : ListsProperties child) (key : Value) :
    (properties (merge parent child)).get? key =
      ((properties child).get? key).or ((properties parent).get? key) := by
  rw [properties_merge_of_listed hc h]
  exact Table.get?_overlay hp.properties.regular hc.properties.regular hc.properties.distinct key

theorem listsProperties_merge {parent child : Mapping} (hc : IsDict child)
    (hp : ListsProperties parent) (h : ListsProperties child) :
    ListsProperties (merge parent child) := by
  intro v hv
  rw [field?_merge_properties parent hc.facets.distinct] at hv
  cases hchild : child.field? "properties" with
  | none =>
      rw [hchild] at hv
      exact hp v (by simpa using hv)
  | some own =>
      obtain ⟨own, rfl⟩ := h own hchild
      rw [hchild] at hv
      simp only [Option.map_some, Option.some_or, Option.some.injEq] at hv
      subst hv
      cases hparent : parent.field "properties" with
      | map inherited => exact ⟨Table.overlay inherited own, by simp [mergedValue, hparent]⟩
      | _ => exact ⟨own, by simp [mergedValue, hparent]⟩

end Declaration

namespace Registry

open DataType

variable {d r : Registry}

/-- An entry that is no reference declares all of its facets itself. -/
theorem IsNearest.own {name : String} {t : DataType} (h : d.get? name = some t)
    (ht : t.target? = none) : d.IsNearest [name] t where
  root := ⟨t, by simpa using h, (kind_ne_reference_iff t).2 ht, rfl, rfl⟩
  facets key _ _ := by simp [nearest, h]
  properties hlists := ⟨hlists name (by simp) t h, fun key => by simp [nearest, h]⟩

/-- One step: the facets of an entry come before those of its settled target. -/
theorem IsNearest.inherits {name target : String} {names : List String}
    {current parent t : DataType} (hget : d.get? name = some current) (hp : parent.IsBuilt)
    (hn : d.IsNearest (target :: names) parent) (hpd : Declaration.IsDict parent.declaration)
    (hcd : Declaration.IsDict current.declaration)
    (hk : parent.kind ≠ .reference)
    (hm : inheriting target parent current = .ok t)
    (hd : t.declaration = Declaration.merge parent.declaration current.declaration) :
    d.IsNearest (name :: target :: names) t where
  root := by
    obtain ⟨root, hroot, hne, hkind, htype⟩ := hn.root
    refine ⟨root, hroot, hne, (inheriting_kind hp.isFaithful hk hm).trans hkind, ?_⟩
    rw [hd, Declaration.field?_merge_type, htype]
  facets key htype hproperties := by
    rw [hd, Declaration.get?_merge hpd hcd htype hproperties, nearest_cons hget,
      hn.facets key htype hproperties]
  properties hlists := by
    have hcurrent := hlists name (by simp) current hget
    obtain ⟨hparent, heach⟩ := hn.properties fun n hmem => hlists n (List.mem_cons_of_mem _ hmem)
    refine ⟨hd ▸ Declaration.listsProperties_merge hcd hparent hcurrent, fun key => ?_⟩
    rw [hd, Declaration.get?_properties_merge hpd hcd hcurrent, nearest_cons hget, heach]

theorem Settles.isDict (hd : d.WellFormed) (hdicts : d.HoldsDicts) {name : String} {t : DataType}
    (h : d.Settles name t) : Declaration.IsDict t.declaration := by
  induction h with
  | own hget _ => exact hdicts _ _ hget
  | inherits hget _ hp hm ih =>
      exact inheriting_isDict (hp.built hd).1.isFaithful ih (hdicts _ _ hget) hm

theorem Settles.isNearest (hd : d.WellFormed) (hdicts : d.HoldsDicts) (hmarks : d.HoldsUnmarked)
    {name : String} {t : DataType} (h : d.Settles name t) :
    ∃ ancestors, d.IsLineage (name :: ancestors) ∧ d.IsNearest (name :: ancestors) t := by
  induction h with
  | own hget ht => exact ⟨[], .root hget ht, .own hget ht⟩
  | @inherits name target current parent t hget ht hp hm ih =>
      obtain ⟨ancestors, hl, hn⟩ := ih
      obtain ⟨hbuilt, hk⟩ := hp.built hd
      have hunmarked : Outline.IsUnmarked current.name (parent.declaration.field "type") := by
        obtain ⟨root, hroot, -, -, htype⟩ := hn.root
        obtain ⟨last, -, hlast⟩ := Option.bind_eq_some_iff.1 hroot
        have htype' : parent.declaration.field "type" = root.declaration.field "type" := by
          rw [Mapping.field, Mapping.field, htype]
        exact ⟨(hmarks _ _ hget).1, htype' ▸ (hmarks _ _ hlast).2⟩
      have hdecl := inheriting_declaration hbuilt.isFaithful hunmarked hm
      exact ⟨target :: ancestors, .child (refersTo_iff.2 ⟨_, hget, ht⟩) hl,
        hn.inherits hget hbuilt (hp.isDict hd hdicts) (hdicts _ _ hget) hk hm hdecl⟩

/-! ## Lineages -/

/-- The nearest declarer wins along the whole lineage of an entry; an entry that is no reference is
left as it was. That no entry keeps a mark is what `DataType.build_isUnmarked` gives for names and
type expressions with at most one. -/
theorem nearest_declarer_wins (h : Populated d r) (ha : r.Applies) (hdicts : d.HoldsDicts)
    (hmarks : d.HoldsUnmarked) :
    (∀ name t, d.get? name = some t → t.kind ≠ .reference → r.applied.get? name = some t) ∧
      ∀ name parent ancestors, d.IsLineage (name :: parent :: ancestors) →
        ∃ t, r.applied.get? name = some t ∧ t.parent = some parent ∧
          d.IsNearest (name :: parent :: ancestors) t := by
  obtain ⟨hd, hrefines⟩ := h.refines
  constructor
  · intro name t hget hk
    exact (hrefines.get?_applied_iff hd ha).2 (.own hget ((kind_ne_reference_iff t).1 hk))
  · intro name parent ancestors hl
    have hname : d.has name = true := hl.has name (by simp)
    obtain ⟨t, hs⟩ := ((applies_iff hd).1 ((hrefines.applies_iff hd).1 ha)).1 name hname
    refine ⟨t, (hrefines.get?_applied_iff hd ha).2 hs, ?_, ?_⟩
    · cases hl with
      | child href _ =>
          obtain ⟨current, hget, ht⟩ := refersTo_iff.1 href
          obtain ⟨_, -, hm⟩ := hs.of_refersTo hget ht
          exact inheriting_parent hm
    · obtain ⟨ancestors', hl', hn⟩ := hs.isNearest hd hdicts hmarks
      rwa [hl'.unique hl] at hn

theorem vehicles_holdsDicts : (declared vehicles).HoldsDicts := by
  refine forall_declared (forall_vehicles ?_ ?_ ?_) <;> rw [declaration_withBinding]
  · exact withProperty_isDict "Car" "seats" "boolean"
  · exact withProperty_isDict "Vehicle" "seats?" "integer"
  · exact withProperty_isDict "object" "seats" "number"

theorem vehicles_holdsUnmarked : (declared vehicles).HoldsUnmarked := by
  have hunmarked : ∀ (name type property propertyType : String),
      Text.endsIn '?' name = false → Text.endsIn '?' (Text.trimEnd type) = false →
        Outline.IsUnmarked name ((withProperty type property propertyType).field "type") := by
    intro name type property propertyType hname htype
    refine ⟨hname, fun expression he _ => ?_⟩
    cases he
    exact htype
  refine forall_declared (forall_vehicles ?_ ?_ ?_) <;>
    rw [DataType.IsUnmarked, name_withBinding, declaration_withBinding]
  · exact hunmarked "Van" "Car" "seats" "boolean" rfl rfl
  · exact hunmarked "Car" "Vehicle" "seats?" "integer" rfl rfl
  · exact hunmarked "Vehicle" "object" "seats" "number" rfl rfl

/-- The youngest of the sample, registered first, once the oldest has come. -/
theorem nearest_declarer_wins_vehicles :
    ∃ t, (run [.add van, .add car, .applyInheritance, .add vehicle]).applied.get? "Van" = some t ∧
      t.parent = some "Car" ∧
      (declared vehicles).IsNearest ["Van", "Car", "Vehicle"] t := by
  have hpopulated : Populated (declared vehicles)
      (run [.add van, .add car, .applyInheritance, .add vehicle]) :=
    run_populated [.add van, .add car, .applyInheritance, .add vehicle] vehicles_isBuilt
      vehicles_distinct
  have hlineage : (declared vehicles).IsLineage ["Van", "Car", "Vehicle"] :=
    .child (by decide) (.child (by decide) (.root rfl rfl))
  exact (nearest_declarer_wins hpopulated (by decide) vehicles_holdsDicts
    vehicles_holdsUnmarked).2 "Van" "Car" ["Vehicle"] hlineage

end Registry

end Raml
