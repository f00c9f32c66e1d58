import Raml.Proofs.DataType.Members
import Raml.Proofs.Registry.NearestDeclarer

/-! # Own properties

Properties are merged by the keys that declarations spell, and an object is
built from the merged ones under their names without a mark. A name that is
spelled in two ways has two keys, and the later one is built last. A key keeps
the place of its first declaration, so a property that a subtype declares itself
can stand before another spelling of an ancestor that came later, which then
takes its place.
-/

namespace Raml

namespace Declaration

def propertyName (key : Value) : String := Text.removeSuffix '?' key.shown

/-- The last entry for a property, under whatever spelling. -/
def lastNamed (properties : Mapping) (name : String) : Option (Value × Value) :=
  properties.reverse.find? fun e => propertyName e.1 == name

/-- The inherited entry that takes the place of a property of one's own spelled `s`: the last one of
the same name, if `s` itself is inherited and is not that one. -/
def shadowing (inherited : Mapping) (s : String) : Option (Value × Value) :=
  if inherited.hasField s then
    (lastNamed inherited (propertyName (.text s))).filter fun e => !(e.1 == .text s)
  else none

theorem lastNamed_eq_some {properties : Mapping} {name : String} {e : Value × Value}
    (h : lastNamed properties name = some e) : e ∈ properties ∧ propertyName e.1 = name := by
  have hname := List.find?_some h
  have hmem := List.mem_of_find?_eq_some h
  exact ⟨by simpa using hmem, by simpa using hname⟩

theorem shadowing_eq_some {inherited : Mapping} {s : String} {k w : Value}
    (h : shadowing inherited s = some (k, w)) :
    (k, w) ∈ inherited ∧ propertyName k = propertyName (.text s) ∧ k ≠ .text s := by
  unfold shadowing at h
  split at h
  · obtain ⟨hlast, hne⟩ := Option.filter_eq_some_iff.1 h
    obtain ⟨hmem, hname⟩ := lastNamed_eq_some hlast
    refine ⟨hmem, hname, ?_⟩
    rintro rfl
    have hself : (Value.text s == .text s) = true := by simp
    rw [hself] at hne
    cases hne
  · cases h

theorem lastNamed_isSome {properties : Mapping} {name : String} {e : Value × Value}
    (h : e ∈ properties) (hname : propertyName e.1 = name) :
    ∃ last, lastNamed properties name = some last := by
  refine Option.isSome_iff_exists.1 (List.find?_isSome.2 ⟨e, by simpa using h, ?_⟩)
  simpa using hname

/-- The merged entry of a name is a new one, or else an inherited one with its value replaced. -/
theorem lastNamed_overlay_eq_or {inherited own : Mapping} (hi : Mapping.IsDict inherited)
    (ho : Mapping.IsDict own) (name : String) :
    lastNamed (Table.overlay inherited own) name =
      (lastNamed (own.filter fun e => !inherited.has e.1) name).or
        ((lastNamed inherited name).map fun e => (e.1, (own.get? e.1).getD e.2)) := by
  rw [Table.overlay_eq_append hi.regular ho.regular hi.distinct ho.distinct]
  unfold lastNamed
  rw [List.reverse_append, List.find?_append, ← List.map_reverse, List.find?_map]
  rfl

/-- Of the merged properties of a name that is spelled `s` and in no other way by oneself, the last
is one's own unless an inherited one takes its place. -/
theorem lastNamed_overlay {inherited own : Mapping} (hi : Mapping.IsDict inherited)
    (ho : Mapping.IsDict own) {s : String} {v : Value} (hs : own.field? s = some v)
    (honly : ∀ k ∈ Table.keys own, propertyName k = propertyName (.text s) → k = .text s) :
    lastNamed (Table.overlay inherited own) (propertyName (.text s)) =
      match shadowing inherited s with
      | none => some (.text s, v)
      | some (k, w) => some (k, (own.get? k).getD w) := by
  have hown : ∀ e ∈ own, propertyName e.1 = propertyName (.text s) → e = (.text s, v) := by
    rintro ⟨k, w⟩ he hname
    obtain rfl := honly k (Table.mem_keys.2 ⟨w, he⟩) hname
    rw [Option.some.inj (hs.symm.trans (Mapping.field?_of_mem ho.distinct he))]
  rw [lastNamed_overlay_eq_or hi ho, shadowing]
  by_cases present : inherited.hasField s = true
  · -- the key keeps the place it has among the inherited ones
    have hnew : lastNamed (own.filter fun e => !inherited.has e.1) (propertyName (.text s)) =
        none := by
      cases hlast : lastNamed (own.filter fun e => !inherited.has e.1) (propertyName (.text s)) with
      | none => rfl
      | some e =>
          obtain ⟨he, hname⟩ := lastNamed_eq_some hlast
          rw [List.mem_filter] at he
          rw [hown e he.1 hname] at he
          simp [show inherited.has (.text s) = true from present] at he
    obtain ⟨w, hw⟩ := Option.isSome_iff_exists.1 present
    obtain ⟨⟨k, w'⟩, hlast⟩ := lastNamed_isSome (Mapping.mem_of_field? hw) rfl
    rw [hnew, hlast, if_pos present]
    by_cases hk : k = .text s
    · subst hk
      have hget : own.get? (.text s) = some v := hs
      have hself : (Value.text s == .text s) = true := by simp
      simp [hget, Option.filter, hself]
    · have hne : (k == .text s) = false := Bool.eq_false_iff.2 (by simpa using hk)
      simp [Option.filter, hne]
  · have habsent : inherited.has (.text s) = false := Bool.eq_false_iff.2 present
    have hmem : (.text s, v) ∈ own.filter fun e => !inherited.has e.1 := by
      simp [List.mem_filter, Mapping.mem_of_field? hs, habsent]
    obtain ⟨last, hlast⟩ := lastNamed_isSome hmem rfl
    obtain ⟨he, hname⟩ := lastNamed_eq_some hlast
    rw [hlast, hown last (List.mem_filter.1 he).1 hname, if_neg present]
    rfl

end Declaration

namespace DataType

/-- An object's property is built from the last entry of its name. -/
theorem get?_ofList_builtFrom {bound : Bool} {properties : Mapping}
    {built : List (String × DataType)} (h : List.Forall₂ (BuiltFrom bound) properties built)
    (name : String) :
    Option.Rel (fun e u => build bound e.1.shown e.2 = .ok u)
      (Declaration.lastNamed properties name) ((Table.ofList built).get? name) := by
  have hrel := find?_rel (f := fun e => Declaration.propertyName e.1 == name)
    (g := fun b => b.1 == name) (List.forall₂_reverse_iff.2 h)
    fun e b hb => by rw [hb.1, Declaration.propertyName]
  rw [Table.get?_ofList, Declaration.lastNamed]
  generalize properties.reverse.find? _ = last at hrel ⊢
  generalize built.reverse.find? _ = found at hrel ⊢
  cases hrel with
  | none => exact .none
  | some hb => exact .some hb.1.2

def property? : DataType → String → Option DataType
  | .object _ _ properties, name => Table.get? properties name
  | _, _ => none

theorem IsBuilt.property?_rel {t : DataType} (h : t.IsBuilt) (hk : t.kind = .object) :
    ∃ bound, ∀ name, Option.Rel (fun e u => DataType.build bound e.1.shown e.2 = .ok u)
      (Declaration.lastNamed (Declaration.properties t.declaration) name) (t.property? name) := by
  induction h with
  | @build bound name definition t h =>
      cases t with
      | object c f properties =>
          obtain ⟨built, hbuilt, rfl⟩ := build_object h
          exact ⟨bound, get?_ofList_builtFrom hbuilt⟩
      | scalar c s => cases s <;> cases hk
      | _ => cases hk
  | @withParent t _ parent ih =>
      obtain ⟨bound, hrel⟩ := ih (by simpa using hk)
      refine ⟨bound, fun name => ?_⟩
      rw [declaration_withParent]
      cases t <;> exact hrel name
  | @withBinding t _ bound ih =>
      obtain ⟨bound', hrel⟩ := ih (by simpa using hk)
      refine ⟨bound', fun name => ?_⟩
      rw [declaration_withBinding]
      cases t <;> exact hrel name

theorem inheriting_property?_rel {parentName : String} {parent current t : DataType}
    (hp : parent.IsFaithful) (h : inheriting parentName parent current = .ok t)
    (hk : t.kind = .object) (name : String) :
    Option.Rel (fun e u => build true e.1.shown e.2 = .ok u)
      (Declaration.lastNamed (Declaration.properties
        (Declaration.merge parent.declaration current.declaration)) name) (t.property? name) := by
  cases t with
  | object c f properties =>
      obtain ⟨built, hbuilt, rfl⟩ := inheriting_object hp h
      exact get?_ofList_builtFrom hbuilt name
  | scalar c s => cases s <;> cases hk
  | _ => cases hk

end DataType

namespace Registry

open Declaration Relation

variable {d r : Registry}

/-- The properties that an entry inherits from its target, none if it has no target. -/
def inheritedProperties (r : Registry) (current : DataType) : Mapping :=
  match current.target?.bind r.get? with
  | some parent => properties parent.declaration
  | none => []

theorem Settles.mem_keys_properties (hd : d.WellFormed) (hdicts : d.HoldsDicts) {name : String}
    {t : DataType} (h : d.Settles name t) {k : Value}
    (hk : k ∈ Table.keys (properties t.declaration)) :
    ∃ ancestor u, ReflTransGen d.RefersTo name ancestor ∧ d.get? ancestor = some u ∧
      k ∈ Table.keys (properties u.declaration) := by
  induction h with
  | @own name t hget _ => exact ⟨name, t, .refl, hget, hk⟩
  | @inherits name target current parent t hget ht hp hm ih =>
      rw [DataType.inheriting_properties (hp.built hd).1.isFaithful hm] at hk
      rcases mem_keys_properties_merge (hdicts name current hget) hk with hk | hk
      · obtain ⟨ancestor, u, hreach, hu, hmem⟩ := ih hk
        exact ⟨ancestor, u, .head (refersTo_iff.2 ⟨_, hget, ht⟩) hreach, hu, hmem⟩
      · exact ⟨name, current, .refl, hget, hk⟩

theorem inheritedProperties_of_root {current : DataType} (h : current.target? = none) :
    r.inheritedProperties current = [] := by
  simp [inheritedProperties, h]

theorem Refines.inheritedProperties (hd : d.WellFormed) (hr : Refines d r) (ha : r.Applies)
    {current parent : DataType} {target : String} (ht : current.target? = some target)
    (hp : d.Settles target parent) :
    r.applied.inheritedProperties current = properties parent.declaration := by
  have hget : r.applied.get? target = some parent := (hr.get?_applied_iff hd ha).2 hp
  simp [Registry.inheritedProperties, ht, hget]

theorem Populated.property?_rel (h : Populated d r) (ha : r.Applies) (hdicts : d.HoldsDicts)
    {name : String} {current t : DataType} (hget : d.get? name = some current)
    (ht : r.applied.get? name = some t) (hk : t.kind = .object) {own : Mapping}
    (hown : current.declaration.field? "properties" = some (.map own)) :
    ∃ bound, (current.kind = .reference → bound = true) ∧
      Mapping.IsDict (r.applied.inheritedProperties current) ∧
      ∀ property, Option.Rel (fun e u => DataType.build bound e.1.shown e.2 = .ok u)
        (lastNamed (Table.overlay (r.applied.inheritedProperties current) own) property)
        (t.property? property) := by
  obtain ⟨hd, hrefines⟩ := h.refines
  have hsettles : d.Settles name t := (hrefines.get?_applied_iff hd ha).1 ht
  cases htarget : current.target? with
  | none =>
      obtain rfl := hsettles.unique (.own hget htarget)
      obtain ⟨bound, hrel⟩ := (hd.built hget).property?_rel hk
      have hdistinct := (hdicts name t hget).properties.distinct
      rw [properties_eq_of_field? hown] at hrel hdistinct
      rw [inheritedProperties_of_root htarget, Table.overlay_nil_left hdistinct]
      refine ⟨bound, fun hk' => ?_, .nil, hrel⟩
      rw [hk] at hk'
      cases hk'
  | some target =>
      obtain ⟨parent, hp, hm⟩ := hsettles.of_refersTo hget htarget
      rw [hrefines.inheritedProperties hd ha htarget hp,
        ← properties_merge (hdicts name current hget) hown]
      exact ⟨true, fun _ => rfl, (hp.isDict hd hdicts).properties,
        DataType.inheriting_property?_rel (hp.built hd).1.isFaithful hm hk⟩

/-- What a property becomes that an entry declares itself, spelled `s` and in no other way. -/
theorem Populated.property_of_own (h : Populated d r) (ha : r.Applies) (hdicts : d.HoldsDicts)
    {name : String} {current t : DataType} (hget : d.get? name = some current)
    (ht : r.applied.get? name = some t) (hk : t.kind = .object) {own : Mapping}
    (hown : current.declaration.field? "properties" = some (.map own)) {s : String} {v : Value}
    (hs : own.field? s = some v)
    (honly : ∀ k ∈ Table.keys own, propertyName k = propertyName (.text s) → k = .text s) :
    ∃ bound u, (current.kind = .reference → bound = true) ∧
      t.property? (propertyName (.text s)) = some u ∧
      match shadowing (r.applied.inheritedProperties current) s with
      | none => DataType.build bound s v = .ok u
      | some (k, w) => DataType.build bound k.shown ((own.get? k).getD w) = .ok u := by
  have hod := (hdicts name current hget).properties
  rw [properties_eq_of_field? hown] at hod
  obtain ⟨bound, hbound, hid, hmerged⟩ := h.property?_rel ha hdicts hget ht hk hown
  have hrel := hmerged (propertyName (.text s))
  rw [lastNamed_overlay hid hod hs honly] at hrel
  cases hshadow : shadowing (r.applied.inheritedProperties current) s with
  | none =>
      rw [hshadow] at hrel
      obtain ⟨u, hu, hb⟩ := exists_of_rel hrel
      exact ⟨bound, u, hbound, hu, hb⟩
  | some e =>
      rw [hshadow] at hrel
      obtain ⟨u, hu, hb⟩ := exists_of_rel hrel
      exact ⟨bound, u, hbound, hu, hb⟩

/-- Where all ancestors spell the name of a property alike, nothing takes its place. -/
theorem Populated.shadowing_eq_none (h : Populated d r) (ha : r.Applies) (hdicts : d.HoldsDicts)
    {name : String} {current t : DataType} (hget : d.get? name = some current)
    (ht : r.applied.get? name = some t) {s : String}
    (hsame : ∀ ancestor a, TransGen d.RefersTo name ancestor → d.get? ancestor = some a →
      ∀ k ∈ Table.keys (properties a.declaration),
        propertyName k = propertyName (.text s) → k = .text s) :
    shadowing (r.applied.inheritedProperties current) s = none := by
  obtain ⟨hd, hrefines⟩ := h.refines
  cases hshadow : shadowing (r.applied.inheritedProperties current) s with
  | none => rfl
  | some e =>
      obtain ⟨k, w⟩ := e
      obtain ⟨hmem, hname, hne⟩ := shadowing_eq_some hshadow
      have hkey := Table.mem_keys.2 ⟨w, hmem⟩
      cases htarget : current.target? with
      | none =>
          rw [inheritedProperties_of_root htarget] at hmem
          cases hmem
      | some target =>
          have href : d.RefersTo name target := refersTo_iff.2 ⟨current, hget, htarget⟩
          obtain ⟨parent, hp, -⟩ :=
            ((hrefines.get?_applied_iff hd ha).1 ht).of_refersTo hget htarget
          rw [hrefines.inheritedProperties hd ha htarget hp] at hkey
          obtain ⟨ancestor, a, hreach, ha', hka⟩ := hp.mem_keys_properties hd hdicts hkey
          exact absurd (hsame ancestor a (.head' href hreach) ha' k hka hname) hne

/-- A property that an entry declares itself, spelled `s` and in no other way, is built from the
entry's own declaration unless an inherited one takes its place: then another spelling of the same
name, which came later among the ancestors than `s` itself, is built instead. Ancestors that
spell the name alike never take its place. -/
theorem own_property_unless_shadowed (h : Populated d r) (ha : r.Applies) (hdicts : d.HoldsDicts)
    {name : String} {current t : DataType} (hget : d.get? name = some current)
    (ht : r.applied.get? name = some t) (hk : t.kind = .object) {own : Mapping}
    (hown : current.declaration.field? "properties" = some (.map own)) {s : String} {v : Value}
    (hs : own.field? s = some v)
    (honly : ∀ k ∈ Table.keys own, propertyName k = propertyName (.text s) → k = .text s) :
    ∃ bound u, (current.kind = .reference → bound = true) ∧
      t.property? (propertyName (.text s)) = some u ∧
      (shadowing (r.applied.inheritedProperties current) s = none →
        DataType.build bound s v = .ok u) ∧
      (∀ k w, shadowing (r.applied.inheritedProperties current) s = some (k, w) →
        propertyName k = propertyName (.text s) ∧ k ≠ .text s ∧
          DataType.build bound k.shown ((own.get? k).getD w) = .ok u) ∧
      ((∀ ancestor a, TransGen d.RefersTo name ancestor → d.get? ancestor = some a →
          ∀ k ∈ Table.keys (properties a.declaration),
            propertyName k = propertyName (.text s) → k = .text s) →
        DataType.build bound s v = .ok u) := by
  obtain ⟨bound, u, hbound, hu, hbuild⟩ := h.property_of_own ha hdicts hget ht hk hown hs honly
  have hnone : shadowing (r.applied.inheritedProperties current) s = none →
      DataType.build bound s v = .ok u := fun hshadow => by rwa [hshadow] at hbuild
  refine ⟨bound, u, hbound, hu, hnone, fun k w hshadow => ?_,
    fun hsame => hnone (h.shadowing_eq_none ha hdicts hget ht hsame)⟩
  rw [hshadow] at hbuild
  obtain ⟨-, hname, hne⟩ := shadowing_eq_some hshadow
  exact ⟨hname, hne, hbuild⟩

theorem vans_seats : ∀ k ∈ Table.keys [(Value.text "seats", Value.text "boolean")],
    propertyName k = propertyName (.text "seats") → k = .text "seats" := by
  intro k hk _
  simpa [Table.keys] using hk

theorem vans_object : ∃ t, (run [.add van, .add car, .add vehicle]).applied.get? "Van" = some t ∧
    t.kind = .object := by
  have hkind : ((run [.add van, .add car, .add vehicle]).applied.get? "Van").map DataType.kind =
      some .object := by decide
  exact Option.map_eq_some_iff.1 hkind

/-- The youngest of the sample declares `seats`, of which the settled one in the middle has another
spelling behind. -/
theorem own_property_unless_shadowed_van :
    ∃ t u, (run [.add van, .add car, .add vehicle]).applied.get? "Van" = some t ∧
      t.property? "seats" = some u ∧
      DataType.build true "seats?" (.text "integer") = .ok u := by
  obtain ⟨t, ht, hk⟩ := vans_object
  have hown : van.type.declaration.field? "properties" =
      some (.map [(.text "seats", .text "boolean")]) := rfl
  obtain ⟨bound, u, hbound, hu, -, hshadowed, -⟩ := own_property_unless_shadowed
    vehicles_populated vehicles_applies vehicles_holdsDicts
    (show (declared vehicles).get? "Van" = _ from rfl) ht hk hown rfl vans_seats
  obtain ⟨-, -, hbuild⟩ := hshadowed (.text "seats?") (.text "integer") rfl
  obtain rfl : bound = true := hbound rfl
  exact ⟨t, u, ht, hu, hbuild⟩

/-- An entry's own property does not always win, although it is spelled in one way by the entry. -/
theorem not_own_property_always :
    ¬ ∀ (d r : Registry), Populated d r → r.Applies → d.HoldsDicts →
      ∀ (name : String) (current t : DataType), d.get? name = some current →
        r.applied.get? name = some t → t.kind = .object →
          ∀ own : Mapping, current.declaration.field? "properties" = some (.map own) →
            ∀ (s : String) (v : Value), own.field? s = some v →
              (∀ k ∈ Table.keys own, propertyName k = propertyName (.text s) → k = .text s) →
                ∃ bound u, t.property? (propertyName (.text s)) = some u ∧
                  DataType.build bound s v = .ok u := by
  intro hclaim
  obtain ⟨t, ht, hk⟩ := vans_object
  have hseats : (((run [.add van, .add car, .add vehicle]).applied.get? "Van").bind
      (·.property? "seats")).map DataType.kind = some .integer := by decide
  obtain ⟨bound, u, hu, hbuild⟩ := hclaim (declared vehicles) _ vehicles_populated vehicles_applies
    vehicles_holdsDicts "Van" van.type t rfl ht hk [(.text "seats", .text "boolean")] rfl "seats"
    (.text "boolean") rfl vans_seats
  have hinteger : u.kind = .integer := by
    rw [ht, Option.bind_some, show t.property? "seats" = some u from hu] at hseats
    simpa using hseats
  have hboolean : u.kind = .boolean := by
    have hbuilt : ∀ bound, (DataType.build bound "seats" (.text "boolean")).map DataType.kind =
        .ok .boolean := fun bound => by cases bound <;> rfl
    have := hbuilt bound
    rw [hbuild] at this
    exact Except.ok.inj this
  rw [hinteger] at hboolean
  cases hboolean

end Registry

end Raml
