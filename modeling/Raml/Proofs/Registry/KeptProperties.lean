import Raml.Proofs.Registry.OwnProperties

/-! # Inherited properties

An entry has every property of its supertype, as long as it lists its own in a
mapping or leaves them out. Anything else under `properties`, an empty node
among them, is laid over the supertype's properties as a whole, and the entry
is left without any. What no step of a lineage takes away stays along the whole
of it.
-/

namespace Raml

namespace Declaration

theorem mem_keys_properties_merge_of_mem {parent child : Mapping} (hc : IsDict child)
    (h : ListsProperties child) {k : Value} (hk : k ∈ Table.keys (properties parent)) :
    k ∈ Table.keys (properties (merge parent child)) := by
  rw [properties_merge_of_listed hc h]
  exact Table.mem_keys_overlay_of_mem hk _

/-- What is neither listed nor left out takes the place of the supertype's properties. -/
theorem properties_merge_of_unlisted {parent child : Mapping} (hc : Table.Distinct child)
    (h : ¬ ListsProperties child) : properties (merge parent child) = [] := by
  simp only [ListsProperties, not_forall] at h
  obtain ⟨v, hv, hunlisted⟩ := h
  have hfield := field?_merge_properties parent hc
  rw [hv] at hfield
  cases v with
  | map own => exact absurd ⟨own, rfl⟩ hunlisted
  | _ => simp [properties, Mapping.field, hfield, mergedValue]

end Declaration

namespace DataType

open Declaration

def HasProperty (t : DataType) (property : String) : Prop := (t.property? property).isSome = true

instance (t : DataType) (property : String) : Decidable (t.HasProperty property) := by
  unfold HasProperty
  infer_instance

theorem HasProperty.kind {t : DataType} {property : String} (h : t.HasProperty property) :
    t.kind = .object := by
  cases t with
  | object => rfl
  | _ => cases h

theorem IsBuilt.hasProperty_iff {t : DataType} (h : t.IsBuilt) (hk : t.kind = .object)
    (property : String) : t.HasProperty property ↔
      ∃ k ∈ Table.keys (properties t.declaration), propertyName k = property := by
  obtain ⟨bound, hrel⟩ := h.property?_rel hk
  have hproperty := hrel property
  constructor
  · intro hsome
    obtain ⟨u, hu⟩ := Option.isSome_iff_exists.1 hsome
    rw [hu] at hproperty
    obtain ⟨e, he, -⟩ := exists_of_rel_right hproperty
    obtain ⟨hmem, hname⟩ := lastNamed_eq_some he
    exact ⟨e.1, List.mem_map_of_mem hmem, hname⟩
  · rintro ⟨k, hk, hname⟩
    obtain ⟨v, hv⟩ := Table.mem_keys.1 hk
    obtain ⟨last, hlast⟩ := lastNamed_isSome hv hname
    rw [hlast] at hproperty
    obtain ⟨u, hu, -⟩ := exists_of_rel hproperty
    exact Option.isSome_iff_exists.2 ⟨u, hu⟩

section Inheriting

variable {parentName : String} {parent current t : DataType}

theorem inheriting_hasProperty (hp : parent.IsBuilt) (hc : Declaration.IsDict current.declaration)
    (hlists : ListsProperties current.declaration)
    (h : inheriting parentName parent current = .ok t) {property : String}
    (hproperty : parent.HasProperty property) : t.HasProperty property := by
  have hkind : t.kind = .object := by
    rw [inheriting_kind hp.isFaithful (by simp [hproperty.kind]) h, hproperty.kind]
  obtain ⟨k, hk, hname⟩ := (hp.hasProperty_iff hproperty.kind property).1 hproperty
  refine ((inheriting_isBuilt h).hasProperty_iff hkind property).2 ⟨k, ?_, hname⟩
  rw [inheriting_properties hp.isFaithful h]
  exact mem_keys_properties_merge_of_mem hc hlists hk

/-- An entry with anything but a mapping under `properties` is left without any. -/
theorem inheriting_hasNoProperty (hp : parent.IsBuilt)
    (hc : Declaration.IsDict current.declaration)
    (hunlisted : ¬ ListsProperties current.declaration)
    (h : inheriting parentName parent current = .ok t) (property : String) :
    ¬ t.HasProperty property := by
  intro hproperty
  obtain ⟨k, hk, -⟩ := ((inheriting_isBuilt h).hasProperty_iff hproperty.kind property).1 hproperty
  rw [inheriting_properties hp.isFaithful h,
    properties_merge_of_unlisted hc.facets.distinct hunlisted] at hk
  cases hk

end Inheriting

end DataType

namespace Registry

open DataType Relation

variable {d r : Registry}

/-- A settled entry keeps the properties of an ancestor if every entry in between, itself included,
lists its properties or leaves them out. -/
theorem Settles.hasProperty (hd : d.WellFormed) (hdicts : d.HoldsDicts) {name : String}
    {t : DataType} (h : d.Settles name t) {ancestor : String} {a : DataType}
    (ha : d.Settles ancestor a) (hreach : ReflTransGen d.RefersTo name ancestor)
    (hlists : ∀ between u, ReflTransGen d.RefersTo name between →
      TransGen d.RefersTo between ancestor → d.get? between = some u →
        Declaration.ListsProperties u.declaration) {property : String}
    (hproperty : a.HasProperty property) : t.HasProperty property := by
  induction h with
  | @own name t hget htarget =>
      rcases hreach.cases_head with rfl | ⟨next, href, -⟩
      · exact (ha.unique (.own hget htarget)) ▸ hproperty
      · obtain ⟨u, hu, hnext⟩ := refersTo_iff.1 href
        rw [hget] at hu
        obtain rfl := Option.some.inj hu
        rw [htarget] at hnext
        cases hnext
  | @inherits name target current parent t hget htarget hp hm ih =>
      -- the ancestor is the entry itself, or it is reached by way of the supertype
      rcases hreach.cases_head with rfl | ⟨next, href, hrest⟩
      · exact (ha.unique (.inherits hget htarget hp hm)) ▸ hproperty
      · obtain ⟨u, hu, hnext⟩ := refersTo_iff.1 href
        rw [hget] at hu
        obtain rfl := Option.some.inj hu
        rw [htarget] at hnext
        obtain rfl := Option.some.inj hnext
        have hown := hlists name current .refl (.head' href hrest) hget
        refine inheriting_hasProperty (hp.built hd).1 (hdicts _ _ hget) hown hm (ih hrest ?_)
        exact fun between u hbetween => hlists between u (.head href hbetween)

/-- Properties are inherited, all of them or none: an entry keeps every property of its supertype
exactly if it lists its own in a mapping, or leaves them out, or there are none to keep. Along a
lineage nothing is lost either, as long as all entries on the way do so. -/
theorem keeps_properties_iff_listed (h : Populated d r) (ha : r.Applies) (hdicts : d.HoldsDicts)
    {name target : String} {current parent t : DataType} (hget : d.get? name = some current)
    (htarget : current.target? = some target) (hp : r.applied.get? target = some parent)
    (ht : r.applied.get? name = some t) :
    t.parent = some target ∧
      ((∀ property, parent.HasProperty property → t.HasProperty property) ↔
        Declaration.ListsProperties current.declaration ∨
          ∀ property, ¬ parent.HasProperty property) ∧
      ∀ ancestor a, ReflTransGen d.RefersTo name ancestor → r.applied.get? ancestor = some a →
        (∀ between u, ReflTransGen d.RefersTo name between →
          TransGen d.RefersTo between ancestor → d.get? between = some u →
            Declaration.ListsProperties u.declaration) →
        ∀ property, a.HasProperty property → t.HasProperty property := by
  obtain ⟨hd, hrefines⟩ := h.refines
  have hs := (hrefines.get?_applied_iff hd ha).1 ht
  obtain ⟨parent', hp', hm⟩ := hs.of_refersTo hget htarget
  obtain rfl := hp'.unique ((hrefines.get?_applied_iff hd ha).1 hp)
  have hbuilt := (hp'.built hd).1
  have hdict := hdicts name current hget
  refine ⟨inheriting_parent hm, ⟨fun hkept => ?_, ?_⟩, ?_⟩
  · by_cases hlists : Declaration.ListsProperties current.declaration
    · exact .inl hlists
    · exact .inr fun property hproperty =>
        inheriting_hasNoProperty hbuilt hdict hlists hm property (hkept property hproperty)
  · rintro (hlists | hnone) property hproperty
    · exact inheriting_hasProperty hbuilt hdict hlists hm hproperty
    · exact absurd hproperty (hnone property)
  · intro ancestor a hreach hget' hlists property hproperty
    exact hs.hasProperty hd hdicts ((hrefines.get?_applied_iff hd ha).1 hget') hreach hlists
      hproperty

theorem keeps_properties_iff_listed_car : ∃ parent t,
    (run [.add van, .add car, .add vehicle]).applied.get? "Vehicle" = some parent ∧
      (run [.add van, .add car, .add vehicle]).applied.get? "Car" = some t ∧
      parent.HasProperty "seats" ∧ t.HasProperty "seats" := by
  have hparent : (run [.add van, .add car, .add vehicle]).applied.get? "Vehicle" = some _ := rfl
  have ht : (run [.add van, .add car, .add vehicle]).applied.get? "Car" = some _ := rfl
  have hkept := keeps_properties_iff_listed vehicles_populated vehicles_applies vehicles_holdsDicts
    (show (declared vehicles).get? "Car" = some (car.type.withBinding true) from rfl) rfl
    hparent ht
  have hlists : Declaration.ListsProperties (car.type.withBinding true).declaration := by
    intro v hv
    obtain rfl := Option.some.inj hv
    exact ⟨_, rfl⟩
  exact ⟨_, _, hparent, ht, rfl, hkept.2.1.2 (.inl hlists) "seats" rfl⟩

/-- A subtype whose `properties` are an empty node. -/
def emptiedFacets : Mapping := [(.text "type", .text "Vehicle"), (.text "properties", .null)]

theorem emptiedFacets_isDict : Declaration.IsDict emptiedFacets where
  facets := .of_texts ["type", "properties"] rfl (by decide)
  properties := .nil

/-- A subtype that lists no properties, and empties those of its supertype. -/
def emptied : Registration := .ofDeclaration "Car" (.map emptiedFacets) rfl

theorem emptied_isBuilt : ∀ a ∈ [emptied, vehicle], a.type.IsBuilt := by
  simp only [List.forall_mem_cons, List.not_mem_nil, false_implies, implies_true, and_true]
  exact ⟨Registration.ofDeclaration_isBuilt _ _ _, Registration.ofDeclaration_isBuilt _ _ _⟩

theorem emptied_populated :
    Populated (declared [emptied, vehicle]) (run [.add emptied, .add vehicle]) :=
  run_populated [.add emptied, .add vehicle] emptied_isBuilt (by decide)

theorem emptied_holdsDicts : (declared [emptied, vehicle]).HoldsDicts := by
  refine forall_declared ?_
  simp only [List.forall_mem_cons, List.not_mem_nil, false_implies, implies_true, and_true,
    declaration_withBinding]
  exact ⟨emptiedFacets_isDict, withProperty_isDict "object" "seats" "number"⟩

/-- An object can lose what its supertype has. -/
theorem not_keeps_properties_always :
    ¬ ∀ (d r : Registry), Populated d r → r.Applies → d.HoldsDicts →
      ∀ (name target : String) (current parent t : DataType), d.get? name = some current →
        current.target? = some target → r.applied.get? target = some parent →
          r.applied.get? name = some t → parent.kind = .object → t.kind = .object →
            ∀ property, parent.HasProperty property → t.HasProperty property := by
  intro hclaim
  exact nomatch hclaim (declared [emptied, vehicle]) (run [.add emptied, .add vehicle])
    emptied_populated (by decide) emptied_holdsDicts "Car" "Vehicle"
    (emptied.type.withBinding true) _ _ rfl rfl rfl rfl rfl rfl "seats" rfl

end Registry

end Raml
