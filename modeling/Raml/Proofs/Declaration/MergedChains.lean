import Raml.Proofs.Registry.NearestDeclarer

/-! # Chains of merged declarations

Laying tables over one another is associative, keys in their places. So is
merging declarations whose properties are mappings, where the type is left out
on the way and the properties are laid over one another as well. A chain of
supertypes has one meaning, however it is grouped to be merged.
-/

namespace Raml

/-! ## What a subtype writes -/

namespace Declaration

/-- What a declaration writes over a supertype's: all its facets but the type, its properties
together with the supertype's. -/
def written (parent child : Mapping) : Mapping :=
  (child.eraseField "type").map fun e => (e.1, mergedValue parent e)

theorem written_cons_type (parent rest : Mapping) (v : Value) :
    written parent ((.text "type", v) :: rest) = written parent rest := by
  simp [written, Mapping.eraseField, Table.erase]

theorem written_cons {key : Value} (h : key ≠ .text "type") (parent rest : Mapping) (v : Value) :
    written parent ((key, v) :: rest) =
      (key, mergedValue parent (key, v)) :: written parent rest := by
  have hne : (key == .text "type") = false := Bool.eq_false_iff.2 (by simpa using h)
  simp [written, Mapping.eraseField, Table.erase, hne]

theorem keys_written (parent child : Mapping) :
    Table.keys (written parent child) = Table.keys (child.eraseField "type") := by
  simp [written, Table.keys]

/-- Merging lays what the subtype writes over the supertype's declaration. -/
theorem merge_eq_overlay (parent child : Mapping) :
    merge parent child = Table.overlay parent (written parent child) := by
  -- what has been merged so far is general, the facets are read against the supertype's alone
  have hfold : ∀ acc : Mapping, child.foldl (mergeFacet parent) acc =
      Table.overlay acc (written parent child) := by
    induction child with
    | nil => exact fun acc => rfl
    | cons facet rest ih =>
        obtain ⟨k, v⟩ := facet
        intro acc
        rw [List.foldl_cons, ih]
        by_cases hk : k = .text "type"
        · subst hk
          rw [mergeFacet_type, written_cons_type]
        · rw [mergeFacet_of_ne hk, written_cons hk]
          rfl
  exact hfold parent

theorem written_isDict {parent child : Mapping} (hc : Mapping.IsDict child) :
    Mapping.IsDict (written parent child) := by
  have herased := hc.eraseField "type"
  refine ⟨?_, ?_⟩
  · rw [keys_written]
    exact herased.keyable
  · rw [Table.Distinct, keys_written]
    exact herased.distinct

/-- What two declarations write together is what one writes over the other. -/
theorem written_overlay (parent base top : Mapping) : written parent (Table.overlay base top) =
    Table.overlay (written parent base) (written parent top) := by
  have hcoherent := fun k k' : Value => Value.coherent_text k k' "type"
  have hcongr : ∀ k k' : Value, (k == k') = true →
      (fun v => mergedValue parent (k, v)) = fun v => mergedValue parent (k', v) :=
    fun k k' h => funext fun v => mergedValue_congr h parent v
  rw [written, Mapping.eraseField, Table.erase_overlay hcoherent]
  exact Table.map_overlay (f := fun k v => mergedValue parent (k, v)) hcongr _ _

theorem mergedValue_own (parent : Mapping) {own : Mapping} (hown : Table.Distinct own) :
    mergedValue parent (.text "properties", .map own) =
      .map (Table.overlay (properties parent) own) := by
  cases hp : parent.field "properties" with
  | map inherited => simp [mergedValue, properties, hp]
  | _ => simp [mergedValue, properties, hp, Table.overlay_nil_left hown]

section Chain

variable {g p c : Mapping} (hg : IsDict g) (hp : IsDict p) (hc : IsDict c)
  (hlists : ListsProperties p) (hlists' : ListsProperties c)
include hg hp hc hlists hlists'

/-- What a facet is written as over a supertype's and then over that one's supertype's is what it
is written as over both. -/
theorem mergedValue_mergedValue {facet : Value × Value} (h : facet ∈ c) :
    mergedValue g (facet.1, mergedValue p facet) = mergedValue (merge g p) facet := by
  obtain ⟨k, v⟩ := facet
  by_cases hk : k = .text "properties"
  · subst hk
    have hv := Mapping.field?_of_mem hc.facets.distinct h
    obtain ⟨own, rfl⟩ := hlists' v hv
    have hown := hc.properties
    rw [properties_eq_of_field? hv] at hown
    have hboth := hp.properties.overlay hown
    rw [mergedValue_own p hown.distinct, mergedValue_own g hboth.distinct,
      mergedValue_own _ hown.distinct, properties_merge_of_listed hp hlists,
      Table.overlay_assoc hg.properties.regular hp.properties.regular hown.regular
        hg.properties.distinct hp.properties.distinct hown.distinct]
  · rw [mergedValue_of_ne hk, mergedValue_of_ne hk, mergedValue_of_ne hk]

theorem written_written : written g (written p c) = written (merge g p) c := by
  have herased : (written p c).eraseField "type" = written p c := by
    simp [written, Mapping.eraseField, Table.erase, List.filter_map, Function.comp_def]
  rw [written, herased, written, written, List.map_map]
  refine List.map_congr_left fun e he => ?_
  have hmem : e ∈ c := (List.mem_filter.1 he).1
  rw [Function.comp_apply, mergedValue_mergedValue hg hp hc hlists hlists' hmem]

/-- A declaration is laid over what its supertype and the next one come to as both are laid over
that one. -/
theorem merge_merge : merge (merge g p) c = merge g (merge p c) := by
  have hown : Mapping.IsDict (written g p) := written_isDict hp.facets
  have hown' : Mapping.IsDict (written g (written p c)) :=
    written_isDict (written_isDict hc.facets)
  calc merge (merge g p) c
    _ = Table.overlay (merge g p) (written (merge g p) c) := merge_eq_overlay _ _
    _ = Table.overlay (Table.overlay g (written g p)) (written g (written p c)) := by
        rw [written_written hg hp hc hlists hlists', ← merge_eq_overlay g p]
    _ = Table.overlay g (Table.overlay (written g p) (written g (written p c))) :=
        Table.overlay_assoc hg.facets.regular hown.regular hown'.regular hg.facets.distinct
          hown.distinct hown'.distinct
    _ = Table.overlay g (written g (Table.overlay p (written p c))) := by rw [written_overlay]
    _ = merge g (merge p c) := by rw [← merge_eq_overlay, ← merge_eq_overlay]

end Chain

/-! ## Chains -/

/-- A chain of declarations, supertypes first, and the order in which they are merged. -/
inductive Grouping
  | one (d : Mapping)
  | two (upper lower : Grouping)

namespace Grouping

def chain : Grouping → List Mapping
  | one d => [d]
  | two upper lower => upper.chain ++ lower.chain

def merged : Grouping → Mapping
  | one d => d
  | two upper lower => merge upper.merged lower.merged

end Grouping

/-- A declaration of a document that lists its properties or leaves them out. -/
structure IsListed (d : Mapping) : Prop where
  isDict : IsDict d
  lists : ListsProperties d

theorem IsListed.merge {parent child : Mapping} (hp : IsListed parent) (hc : IsListed child) :
    IsListed (merge parent child) :=
  ⟨hp.isDict.merge hc.isDict, listsProperties_merge hc.isDict hp.lists hc.lists⟩

/-- A chain below a merged declaration may be merged by itself first. -/
theorem foldl_merge {g d : Mapping} {rest : List Mapping} (hg : IsListed g) (hd : IsListed d)
    (hrest : ∀ e ∈ rest, IsListed e) :
    rest.foldl merge (merge g d) = merge g (rest.foldl merge d) := by
  induction rest generalizing d with
  | nil => rfl
  | cons e rest ih =>
      rw [List.forall_mem_cons] at hrest
      rw [List.foldl_cons, List.foldl_cons,
        merge_merge hg.isDict hd.isDict hrest.1.isDict hd.lists hrest.1.lists]
      exact ih (hd.merge hrest.1) hrest.2

theorem Grouping.merged_eq_foldl {t : Grouping} (h : ∀ d ∈ t.chain, IsListed d) :
    ∃ d rest, t.chain = d :: rest ∧ t.merged = rest.foldl merge d ∧ IsListed t.merged := by
  induction t with
  | one d => exact ⟨d, [], rfl, rfl, h d (List.mem_singleton_self d)⟩
  | two upper lower ihUpper ihLower =>
      rw [chain, List.forall_mem_append] at h
      obtain ⟨d, rest, hchain, hmerged, hlisted⟩ := ihUpper h.1
      obtain ⟨e, rest', hchain', hmerged', hlisted'⟩ := ihLower h.2
      refine ⟨d, rest ++ e :: rest', by simp [chain, hchain, hchain'], ?_, hlisted.merge hlisted'⟩
      rw [hchain', List.forall_mem_cons] at h
      rw [merged, hmerged', List.foldl_append, ← hmerged, List.foldl_cons,
        foldl_merge hlisted h.2.1 h.2.2]

/-- Merging declarations that list their properties or leave them out is associative, in the places
of keys and of properties as well: a chain of any length comes to the same however it is grouped. -/
theorem merge_assoc :
    (∀ g p c, IsListed g → IsListed p → IsListed c →
      merge (merge g p) c = merge g (merge p c)) ∧
    ∀ s t : Grouping, s.chain = t.chain → (∀ d ∈ s.chain, IsListed d) → s.merged = t.merged := by
  constructor
  · intro g p c hg hp hc
    exact merge_merge hg.isDict hp.isDict hc.isDict hp.lists hc.lists
  · intro s t hchain hlisted
    obtain ⟨d, rest, hs, hmerged, -⟩ := Grouping.merged_eq_foldl hlisted
    rw [hchain] at hlisted
    obtain ⟨d', rest', ht, hmerged', -⟩ := Grouping.merged_eq_foldl hlisted
    rw [hs, ht] at hchain
    obtain ⟨rfl, rfl⟩ := List.cons.inj hchain
    rw [hmerged, hmerged']

def vehicleFacets : Mapping := Registry.withProperty "object" "seats" "number"

def carFacets : Mapping := Registry.withProperty "Vehicle" "doors?" "integer"

/-- The declaration of a cab, a kind of car, with its properties in front of its type. -/
def cabFacets : Mapping :=
  [(.text "properties", .map [(.text "fare", .text "number"), (.text "seats", .text "integer")]),
    (.text "type", .text "Car"), (.text "description", .text "A car for hire.")]

theorem withProperty_isListed (type property propertyType : String) :
    IsListed (Registry.withProperty type property propertyType) where
  isDict := Registry.withProperty_isDict type property propertyType
  lists _ h := ⟨_, (Option.some.inj h).symm⟩

theorem cabFacets_isListed : IsListed cabFacets where
  isDict :=
    { facets := .of_texts ["properties", "type", "description"] rfl (by decide)
      properties := .of_texts ["fare", "seats"] rfl (by decide) }
  lists _ h := ⟨_, (Option.some.inj h).symm⟩

/-- Each key of a cab stands where the oldest of its ancestors has it. -/
theorem merge_assoc_cab :
    merge (merge vehicleFacets carFacets) cabFacets =
        merge vehicleFacets (merge carFacets cabFacets) ∧
      merge vehicleFacets (merge carFacets cabFacets) =
        [(.text "type", .text "object"),
          (.text "properties", .map [(.text "seats", .text "integer"),
            (.text "doors?", .text "integer"), (.text "fare", .text "number")]),
          (.text "description", .text "A car for hire.")] :=
  ⟨merge_assoc.1 _ _ _ (withProperty_isListed _ _ _) (withProperty_isListed _ _ _)
    cabFacets_isListed, rfl⟩

end Declaration

end Raml
