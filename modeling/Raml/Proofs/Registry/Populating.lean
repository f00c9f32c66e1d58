import Raml.Proofs.Registry.Applying

/-! # Populated registries

A registry is filled by registering built types under new names, and inheritance
may be applied to it at any time, with or without success. Whatever the order,
the registry refines the one that holds the same types as they were declared.
-/

namespace Raml

namespace Registry

variable {d r s : Registry}

/-! ## Registering -/

theorem add_of_absent {t : DataType} {key : Option String}
    (h : r.has (keyFor t key) = false) :
    r.add t key = r ++ [(keyFor t key, t.withBinding true)] :=
  Table.insert_of_absent h _

theorem get?_add (r : Registry) (t : DataType) (key : Option String) (name : String) :
    (r.add t key).get? name =
      if keyFor t key = name then some (t.withBinding true) else r.get? name := by
  rw [add, Table.get?_insert]
  simp

theorem WellFormed.nil : WellFormed ([] : Registry) := ⟨by simp [Table.keys], by simp⟩

theorem WellFormed.add (hr : r.WellFormed) {t : DataType} (ht : t.IsBuilt) (key : Option String) :
    (r.add t key).WellFormed where
  distinct := by
    rw [← Table.distinct_iff_nodup]
    exact ((Table.distinct_iff_nodup r).2 hr.distinct).insert _ _
  built {name u} hget := by
    rw [get?_add] at hget
    split at hget
    · obtain rfl := Option.some.inj hget
      exact ht.withBinding true
    · exact hr.built hget

theorem WellFormed.applied (hr : r.WellFormed) : r.applied.WellFormed :=
  (applied_refines hr).wellFormed hr

/-- A type under a new name is registered alike in a registry and in one that refines it. -/
theorem Refines.add (h : Refines d r) {t : DataType} {key : Option String}
    (hfresh : d.has (keyFor t key) = false) : Refines (d.add t key) (r.add t key) where
  keys := by
    rw [add_of_absent hfresh, add_of_absent ((h.has _).trans hfresh)]
    simp only [Table.keys, List.map_append]
    rw [show List.map (·.1) r = List.map (·.1) d from h.keys]
  entry {name u} hget := by
    have hmono : ∀ {name : String} {u : DataType}, d.get? name = some u →
        (d.add t key).get? name = some u := fun {name u} hd => by
      rw [get?_add, if_neg]
      · exact hd
      · rintro rfl
        simp [Table.has, hd] at hfresh
    rw [get?_add] at hget ⊢
    split at hget
    · next heq => exact .inl (by rw [if_pos heq]; exact hget)
    · next hne =>
        rw [if_neg hne]
        exact (h.entry hget).imp_right (Settles.mono hmono)

/-- A registry `r` on its way, and the registry `d` with the same types as they were declared. -/
inductive Populated : Registry → Registry → Prop
  | start {r : Registry} (hr : r.WellFormed) : Populated r r
  | add {d r : Registry} (h : Populated d r) {t : DataType} (ht : t.IsBuilt)
      {key : Option String} (hfresh : d.has (keyFor t key) = false) :
      Populated (d.add t key) (r.add t key)
  | apply {d r : Registry} (h : Populated d r) : Populated d r.applied

theorem Populated.refines (h : Populated d r) : d.WellFormed ∧ Refines d r := by
  induction h with
  | start hr => exact ⟨hr, .refl _⟩
  | add _ ht hfresh ih => exact ⟨ih.1.add ht _, ih.2.add hfresh⟩
  | apply _ ih => exact ⟨ih.1, ih.2.trans ih.1 (applied_refines (ih.2.wellFormed ih.1))⟩

/-! ## Applying inheritance to what refines a registry -/

theorem Refines.applies_iff (hd : d.WellFormed) (h : Refines d r) : r.Applies ↔ d.Applies := by
  rw [Registry.applies_iff (h.wellFormed hd), Registry.applies_iff hd]
  simp only [h.has, h.settles_iff hd, dangles_congr h]

theorem Refines.get?_applied_iff (hd : d.WellFormed) (h : Refines d r) (ha : r.Applies)
    {name : String} {t : DataType} : r.applied.get? name = some t ↔ d.Settles name t := by
  rw [Registry.get?_applied_iff (h.wellFormed hd) ha, h.settles_iff hd]

/-! ## Operations -/

/-- A type to be registered, and the name to register it under. -/
structure Registration where
  type : DataType
  key : Option String

def Registration.name (a : Registration) : String := keyFor a.type a.key

inductive Operation
  | add (a : Registration)
  | applyInheritance

def Operation.edit : Operation → Edit Registry Unit
  | .add a => register a.type a.key
  | .applyInheritance => Registry.applyInheritance

def Operation.registration? : Operation → Option Registration
  | .add a => some a
  | .applyInheritance => none

/-- The registry that an operation leaves, also when it fails. -/
def perform (r : Registry) (op : Operation) : Registry := (op.edit r).state

/-- The registry that operations on an empty one leave. -/
def run (ops : List Operation) : Registry := ops.foldl perform []

/-- The registrations that operations make, in order. -/
def registrations (ops : List Operation) : List Registration :=
  ops.filterMap Operation.registration?

def declared (as : List Registration) : Registry := as.foldl (fun r a => r.add a.type a.key) []

theorem forall_foldl_add {P : DataType → Prop} {as : List Registration}
    (h : ∀ a ∈ as, P (a.type.withBinding true)) (hd : ∀ name t, d.get? name = some t → P t) :
    ∀ name t, (as.foldl (fun r a => r.add a.type a.key) d).get? name = some t → P t := by
  induction as generalizing d with
  | nil => exact hd
  | cons a rest ih =>
      refine ih (fun b hb => h b (List.mem_cons_of_mem a hb)) ?_
      intro name t hget
      rw [get?_add] at hget
      split at hget
      · obtain rfl := Option.some.inj hget
        exact h a (by simp)
      · exact hd name t hget

theorem forall_declared {P : DataType → Prop} {as : List Registration}
    (h : ∀ a ∈ as, P (a.type.withBinding true)) :
    ∀ name t, (declared as).get? name = some t → P t :=
  forall_foldl_add h (by simp)

@[simp] theorem perform_add (r : Registry) (a : Registration) :
    r.perform (.add a) = r.add a.type a.key := rfl

@[simp] theorem perform_applyInheritance (r : Registry) :
    r.perform .applyInheritance = r.applied := rfl

theorem foldl_perform_wellFormed {ops : List Operation} (hr : r.WellFormed)
    (hbuilt : ∀ a ∈ registrations ops, a.type.IsBuilt) : (ops.foldl perform r).WellFormed := by
  induction ops generalizing r with
  | nil => exact hr
  | cons op rest ih =>
      cases op with
      | applyInheritance => exact ih hr.applied hbuilt
      | add a =>
          have hcons : registrations (.add a :: rest) = a :: registrations rest := rfl
          rw [hcons] at hbuilt
          exact ih (hr.add (hbuilt a (by simp)) a.key) fun b hb =>
            hbuilt b (List.mem_cons_of_mem a hb)

/-- Whatever is done to a registry, names registered again included, it stays well-formed. -/
theorem run_wellFormed (ops : List Operation)
    (hbuilt : ∀ a ∈ registrations ops, a.type.IsBuilt) : (run ops).WellFormed :=
  foldl_perform_wellFormed .nil hbuilt

theorem foldl_perform_populated {ops : List Operation} (h : Populated d r)
    (hbuilt : ∀ a ∈ registrations ops, a.type.IsBuilt)
    (hfresh : ∀ a ∈ registrations ops, d.has a.name = false)
    (hdistinct : ((registrations ops).map Registration.name).Nodup) :
    Populated ((registrations ops).foldl (fun r a => r.add a.type a.key) d)
      (ops.foldl perform r) := by
  induction ops generalizing d r with
  | nil => exact h
  | cons op rest ih =>
      cases op with
      | applyInheritance => exact ih h.apply hbuilt hfresh hdistinct
      | add a =>
          have hcons : registrations (.add a :: rest) = a :: registrations rest := rfl
          rw [hcons] at hbuilt hfresh hdistinct ⊢
          rw [List.map_cons, List.nodup_cons] at hdistinct
          -- the name that is added now is none of those that are added later
          refine ih (.add h (hbuilt a (by simp)) (hfresh a (by simp)))
            (fun b hb => hbuilt b (List.mem_cons_of_mem a hb)) ?_ hdistinct.2
          intro b hb
          have hne : keyFor a.type a.key ≠ b.name := fun he =>
            hdistinct.1 (show keyFor a.type a.key ∈ _ from he ▸ List.mem_map_of_mem hb)
          have hold := hfresh b (List.mem_cons_of_mem a hb)
          simp only [Table.has] at hold ⊢
          rw [get?_add, if_neg hne]
          exact hold

theorem run_populated (ops : List Operation) (hbuilt : ∀ a ∈ registrations ops, a.type.IsBuilt)
    (hdistinct : ((registrations ops).map Registration.name).Nodup) :
    Populated (declared (registrations ops)) (run ops) :=
  foldl_perform_populated (.start .nil) hbuilt (fun _ _ => rfl) hdistinct

/-! ## A sample

A subtype of a subtype, whose declarations spell the same property in two ways.
-/

def Registration.ofDeclaration (name : String) (definition : Value)
    (h : (DataType.build true name definition).toOption.isSome = true) : Registration where
  type := (DataType.build true name definition).toOption.get h
  key := none

theorem Registration.ofDeclaration_isBuilt (name : String) (definition : Value)
    (h : (DataType.build true name definition).toOption.isSome = true) :
    (ofDeclaration name definition h).type.IsBuilt :=
  .build (Except.eq_ok_get h)

def withProperty (type property propertyType : String) : Mapping :=
  [(.text "type", .text type),
    (.text "properties", .map [(.text property, .text propertyType)])]

theorem withProperty_isDict (type property propertyType : String) :
    Declaration.IsDict (withProperty type property propertyType) where
  facets := .of_texts ["type", "properties"] rfl (by decide)
  properties := .of_texts [property] rfl (by simp)

def vehicle : Registration :=
  .ofDeclaration "Vehicle" (.map (withProperty "object" "seats" "number")) rfl

/-- The subtype in the middle; its property is optional. -/
def car : Registration :=
  .ofDeclaration "Car" (.map (withProperty "Vehicle" "seats?" "integer")) rfl

def van : Registration :=
  .ofDeclaration "Van" (.map (withProperty "Car" "seats" "boolean")) rfl

def vehicles : List Registration := [van, car, vehicle]

theorem forall_vehicles {P : Registration → Prop} (hvan : P van) (hcar : P car)
    (hvehicle : P vehicle) : ∀ a ∈ vehicles, P a := by
  simp [vehicles, hvan, hcar, hvehicle]

theorem vehicles_isBuilt : ∀ a ∈ vehicles, a.type.IsBuilt :=
  forall_vehicles (Registration.ofDeclaration_isBuilt _ _ _)
    (Registration.ofDeclaration_isBuilt _ _ _) (Registration.ofDeclaration_isBuilt _ _ _)

theorem vehicles_distinct : (vehicles.map Registration.name).Nodup := by
  decide

theorem vehicles_applies : (run [.add van, .add car, .add vehicle]).Applies := by
  decide

theorem vehicles_populated :
    Populated (declared vehicles) (run [.add van, .add car, .add vehicle]) :=
  run_populated [.add van, .add car, .add vehicle] vehicles_isBuilt vehicles_distinct

end Registry

end Raml
