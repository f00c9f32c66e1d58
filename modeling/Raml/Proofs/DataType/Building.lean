import Raml.Proofs.Declaration.Nesting
import Raml.Proofs.General.Runs

/-! # Built types

A type is built from its outline once the types nested in it are built, at any
depth: the weight of a declaration never runs out. A built type keeps the name,
the kind and the declaration of its outline and has no supertype. What keeps a
type from being built is a fault of its declaration, never a name.
-/

namespace Raml

namespace Checked

variable {α β : Type}

theorem map_eq_ok_iff (f : α → β) (x : Checked α) (b : β) :
    f <$> x = .ok b ↔ ∃ a, x = .ok a ∧ f a = b := by
  cases x <;> simp [Functor.map, map]

theorem seq_eq_ok_iff (f : Checked (α → β)) (x : Checked α) (b : β) :
    f <*> x = .ok b ↔ ∃ g a, f = .ok g ∧ x = .ok a ∧ g a = b := by
  cases f <;> cases x <;> simp [Seq.seq, seq]

theorem toExcept_eq_error {record : Record} {x : Checked α} {e : Fault}
    (h : x.toExcept record = .error e) : ∃ keys, e = .badFields record keys := by
  cases x with
  | ok a => simp [toExcept] at h
  | bad keys => exact ⟨_, (Except.error.inj h).symm⟩

end Checked

theorem Field.readOptional_absent {α : Type} {d : Mapping} {key other : String}
    {kind : Value → Option α} (hkey : d.field? key = none) (hother : d.field? other = none) :
    readOptional d key other kind = .ok none := by
  simp [readOptional, read, hkey, hother]

theorem Field.read_absent {α : Type} {d : Mapping} {key other : String} {a : α}
    {kind : Value → Option α} (hkey : d.field? key = none) (hother : d.field? other = none) :
    read d key other (some a) kind = .ok a := by
  simp [read, hkey, hother]

theorem Common.read_eq_ok {name : String} {d : Mapping} {c : Common}
    (h : Common.read name d = .ok c) : c.name = name ∧ c.parent = none ∧ c.declaration = d := by
  simp only [Common.read, Checked.seq_eq_ok_iff, Checked.map_eq_ok_iff] at h
  obtain ⟨_, _, ⟨_, _, ⟨_, _, ⟨_, _, ⟨_, _, ⟨_, _, ⟨_, _, rfl⟩, _, rfl⟩, _, rfl⟩, _, rfl⟩, _,
    rfl⟩, _, rfl⟩, _, rfl⟩ := h
  exact ⟨rfl, rfl, rfl⟩

/-! ## Faults of an outline -/

/-- Whether a fault is one of a declaration, neither of a name in it nor of its depth, nor of a
value. -/
structure Fault.OfDeclaration (f : Fault) : Prop where
  ne_endless : f ≠ .endless
  ne_unresolvedType : f.family ≠ .unresolvedType
  ne_inheritanceCycle : f.family ≠ .inheritanceCycle
  ne_validation : f.family ≠ .validation

namespace Outline

theorem readSchema_fault {source : String} {f : Fault} (h : readSchema source = .error f) :
    f.OfDeclaration := by
  unfold readSchema at h
  split at h
  · simp at h
  all_goals
    obtain rfl := Except.error.inj h
    exact ⟨by simp, by simp [Fault.family], by simp [Fault.family], by simp [Fault.family]⟩

theorem readProperties_fault {name : String} {d : Mapping} {f : Fault}
    (h : readProperties name d = .error f) : f.OfDeclaration := by
  unfold readProperties at h
  dsimp only at h
  split at h
  · simp at h
  · split at h
    · simp at h
    · obtain rfl := Except.error.inj h
      exact ⟨by simp, by simp [Fault.family], by simp [Fault.family], by simp [Fault.family]⟩

theorem ofText_fault {name expression : String} {d : Mapping} {f : Fault}
    (h : ofText name d expression = .error f) : f.OfDeclaration := by
  unfold ofText at h
  dsimp only at h
  split at h
  · simp at h
  · split at h
    · rw [Except.bind_eq_error_iff] at h
      rcases h with h | ⟨_, -, h⟩
      · exact readProperties_fault h
      · simp at h
    · split at h
      · simp at h
      · split at h
        · simp at h
        · split at h
          · rw [Except.bind_eq_error_iff] at h
            rcases h with h | ⟨_, -, h⟩
            · exact readSchema_fault h
            · simp at h
          · simp at h

theorem ofDefinition_fault {name : String} {definition : Value} {f : Fault}
    (h : ofDefinition name definition = .error f) : f.OfDeclaration := by
  unfold ofDefinition at h
  split at h
  · simp at h
  · rw [Except.bind_eq_error_iff] at h
    rcases h with h | ⟨d, -, h⟩
    · unfold Declaration.normalize at h
      split at h
      · simp at h
      · simp at h
      · simp at h
      · obtain rfl := Except.error.inj h
        exact ⟨by simp, by simp [Fault.family], by simp [Fault.family], by simp [Fault.family]⟩
    · split at h
      · simp at h
      · exact ofText_fault h
      · obtain rfl := Except.error.inj h
        exact ⟨by simp, by simp [Fault.family], by simp [Fault.family], by simp [Fault.family]⟩

end Outline

namespace DataType

/-! ## From an outline -/

structure Assembled (o : Outline) (nested : List DataType) (t : DataType) : Prop where
  name : t.name = o.name
  kind : t.kind = o.shape.kind
  parent : t.parent = none
  declaration : t.declaration = o.declaration
  object : ∀ properties, o.shape = .object properties → ∃ c f, t = .object c f
    (Table.ofList ((properties.map fun p => Text.removeSuffix '?' p.1).zip nested))
  embedded : ∀ schema, o.shape = .embedded schema → ∃ entries, schema = .map entries

theorem readScalar_kind {d : Mapping} {word : ScalarWord} {s : Scalar}
    (h : readScalar d word = .ok s) : s.kind = word.kind := by
  have hmap : ∀ {α : Type} {f : α → Scalar} {x : Checked α}, x.map f = .ok s → ∃ a, f a = s :=
    fun {α f x} hx => by
      obtain ⟨a, -, ha⟩ := (Checked.map_eq_ok_iff f x s).1 hx
      exact ⟨a, ha⟩
  cases word with
  | any | boolean | nil =>
      cases h
      rfl
  | string | number | integer | file | temporal =>
      obtain ⟨a, rfl⟩ := hmap h
      rfl

/-- The type that is built from a shape: its facets can be read from the declaration. -/
inductive IsAssembly (bound : Bool) (name : String) (d : Mapping) (nested : List DataType) :
    Shape → DataType → Prop
  | scalar {word : ScalarWord} {c : Common} {s : Scalar} (hc : Common.read name d = .ok c)
      (hs : readScalar d word = .ok s) :
      IsAssembly bound name d nested (.scalar word) (.scalar c s)
  | object {properties : List (String × Value)} {c : Common} {f : ObjectFacets}
      (hc : Common.read name d = .ok c) (hf : ObjectFacets.read d = .ok f) :
      IsAssembly bound name d nested (.object properties) (.object c f
        (Table.ofList ((properties.map fun p => Text.removeSuffix '?' p.1).zip nested)))
  | array {items : Option (String × Value)} {c : Common} {f : ArrayFacets}
      (hc : Common.read name d = .ok c) (hf : ArrayFacets.read d = .ok f) :
      IsAssembly bound name d nested (.array items) (.array c f nested.head?)
  | union {expressions : List String} {c : Common} {members : List DataType}
      (hc : Common.read name d = .ok c) (hm : readMembers d nested = .ok members) :
      IsAssembly bound name d nested (.union expressions) (.union c members)
  | reference {target : String} {c : Common} (hc : Common.read name d = .ok c) :
      IsAssembly bound name d nested (.reference target) (.reference c target bound)
  | json {schema : Mapping} {c : Common} (hc : Common.read name d = .ok c) :
      IsAssembly bound name d nested (.json schema) (.scalar c (.json schema))
  | xml {schema : String} {c : Common} (hc : Common.read name d = .ok c) :
      IsAssembly bound name d nested (.xml schema) (.scalar c (.xml schema))
  | embedded {schema : Mapping} {c : Common} (hc : Common.read name [] = .ok c) :
      IsAssembly bound name d nested (.embedded (.map schema))
        (.scalar { c with declaration := d } (.json schema))

theorem assemble_eq_ok_iff {bound : Bool} {o : Outline} {nested : List DataType} {t : DataType} :
    assemble bound o nested = .ok t ↔ IsAssembly bound o.name o.declaration nested o.shape t := by
  obtain ⟨name, d, shape⟩ := o
  constructor
  · intro h
    cases shape with
    | scalar word =>
        simp only [assemble, Checked.toExcept_eq_ok_iff, Checked.seq_eq_ok_iff,
          Checked.map_eq_ok_iff] at h
        obtain ⟨_, s, ⟨c, hc, rfl⟩, hs, rfl⟩ := h
        exact .scalar hc hs
    | object properties =>
        simp only [assemble, Checked.toExcept_eq_ok_iff, Checked.seq_eq_ok_iff,
          Checked.map_eq_ok_iff] at h
        obtain ⟨_, f, ⟨c, hc, rfl⟩, hf, rfl⟩ := h
        exact .object hc hf
    | array items =>
        simp only [assemble, Checked.toExcept_eq_ok_iff, Checked.seq_eq_ok_iff,
          Checked.map_eq_ok_iff] at h
        obtain ⟨_, f, ⟨c, hc, rfl⟩, hf, rfl⟩ := h
        exact .array hc hf
    | union expressions =>
        simp only [assemble, Checked.toExcept_eq_ok_iff, Checked.seq_eq_ok_iff,
          Checked.map_eq_ok_iff] at h
        obtain ⟨_, members, ⟨c, hc, rfl⟩, hm, rfl⟩ := h
        exact .union hc hm
    | reference target =>
        simp only [assemble, Checked.toExcept_eq_ok_iff, Checked.map_eq_ok_iff] at h
        obtain ⟨c, hc, rfl⟩ := h
        exact .reference hc
    | json schema =>
        simp only [assemble, Checked.toExcept_eq_ok_iff, Checked.map_eq_ok_iff] at h
        obtain ⟨c, hc, rfl⟩ := h
        exact .json hc
    | xml schema =>
        simp only [assemble, Checked.toExcept_eq_ok_iff, Checked.map_eq_ok_iff] at h
        obtain ⟨c, hc, rfl⟩ := h
        exact .xml hc
    | embedded schema =>
        simp only [assemble, Except.map_eq_ok_iff, Checked.toExcept_eq_ok_iff,
          Checked.seq_eq_ok_iff, Checked.map_eq_ok_iff] at h
        obtain ⟨_, ⟨_, entries, ⟨c, hc, rfl⟩, hv, rfl⟩, rfl⟩ := h
        cases schema with
        | map entries' =>
            cases hv
            exact .embedded hc
        | _ => cases hv
  · intro h
    cases h with
    | scalar hc hs =>
        simp only [assemble, Checked.toExcept_eq_ok_iff, Checked.seq_eq_ok_iff,
          Checked.map_eq_ok_iff]
        exact ⟨_, _, ⟨_, hc, rfl⟩, hs, rfl⟩
    | object hc hf | array hc hf | union hc hf =>
        simp only [assemble, Checked.toExcept_eq_ok_iff, Checked.seq_eq_ok_iff,
          Checked.map_eq_ok_iff]
        exact ⟨_, _, ⟨_, hc, rfl⟩, hf, rfl⟩
    | reference hc | json hc | xml hc =>
        simp only [assemble, Checked.toExcept_eq_ok_iff, Checked.map_eq_ok_iff]
        exact ⟨_, hc, rfl⟩
    | embedded hc =>
        simp only [assemble, Except.map_eq_ok_iff, Checked.toExcept_eq_ok_iff,
          Checked.seq_eq_ok_iff, Checked.map_eq_ok_iff]
        exact ⟨_, ⟨_, _, ⟨_, hc, rfl⟩, rfl, rfl⟩, rfl⟩

theorem assemble_eq_ok {bound : Bool} {o : Outline} {nested : List DataType} {t : DataType}
    (h : assemble bound o nested = .ok t) : Assembled o nested t := by
  obtain ⟨name, d, shape⟩ := o
  have hassembly := assemble_eq_ok_iff.1 h
  dsimp only at hassembly
  cases hassembly with
  | scalar hc hs =>
      obtain ⟨hname, hparent, hd⟩ := Common.read_eq_ok hc
      exact ⟨hname, readScalar_kind hs, hparent, hd, by simp, by simp⟩
  | object hc hf =>
      obtain ⟨hname, hparent, hd⟩ := Common.read_eq_ok hc
      refine ⟨hname, rfl, hparent, hd, fun properties hshape => ?_, by simp⟩
      cases hshape
      exact ⟨_, _, rfl⟩
  | array hc hf | union hc hf =>
      obtain ⟨hname, hparent, hd⟩ := Common.read_eq_ok hc
      exact ⟨hname, rfl, hparent, hd, by simp, by simp⟩
  | reference hc | json hc | xml hc =>
      obtain ⟨hname, hparent, hd⟩ := Common.read_eq_ok hc
      exact ⟨hname, rfl, hparent, hd, by simp, by simp⟩
  | @embedded schema c hc =>
      obtain ⟨hname, hparent, -⟩ := Common.read_eq_ok hc
      refine ⟨hname, rfl, hparent, rfl, by simp, fun schema' hshape => ?_⟩
      cases hshape
      exact ⟨schema, rfl⟩

/-! ## From a declaration -/

theorem weight_pos (v : Value) : 0 < v.weight := by
  cases v <;> simp [Value.weight]

/-- More depth than a declaration weighs changes nothing. -/
theorem buildWithin_eq_of_le (bound : Bool) {fuel fuel' : Nat} {name : String} {definition : Value}
    (h : definition.weight ≤ fuel) (h' : definition.weight ≤ fuel') :
    buildWithin bound fuel name definition = buildWithin bound fuel' name definition := by
  have hpos := weight_pos definition
  induction fuel generalizing fuel' name definition with
  | zero => omega
  | succ fuel ih =>
      cases fuel' with
      | zero => omega
      | succ fuel' =>
          simp only [buildWithin]
          cases ho : Outline.ofDefinition name definition with
          | error e => rfl
          | ok o =>
              have hnested : o.shape.nested.mapM (fun p => buildWithin bound fuel p.1 p.2) =
                  o.shape.nested.mapM fun p => buildWithin bound fuel' p.1 p.2 := by
                refine mapM_congr_of_mem fun p hp => ?_
                have hlt := Outline.weight_lt_of_nested ho hp
                exact ih (by omega) (by omega) (weight_pos p.2)
              simp only [bind, Except.bind, hnested]

theorem build_eq (bound : Bool) (name : String) (definition : Value) :
    build bound name definition = (do
      let o ← Outline.ofDefinition name definition
      let nested ← o.shape.nested.mapM fun p => build bound p.1 p.2
      assemble bound o nested) := by
  have hpos := weight_pos definition
  unfold build
  obtain ⟨fuel, hfuel⟩ : ∃ fuel, definition.weight = fuel + 1 := ⟨definition.weight - 1, by omega⟩
  rw [hfuel, buildWithin]
  cases ho : Outline.ofDefinition name definition with
  | error e => rfl
  | ok o =>
      have hnested : o.shape.nested.mapM (fun p => buildWithin bound fuel p.1 p.2) =
          o.shape.nested.mapM fun p => buildWithin bound p.2.weight p.1 p.2 := by
        refine mapM_congr_of_mem fun p hp => ?_
        have hlt := Outline.weight_lt_of_nested ho hp
        exact buildWithin_eq_of_le bound (by omega) (Nat.le_refl _)
      simp only [bind, Except.bind, hnested]

theorem build_eq_ok {bound : Bool} {name : String} {definition : Value} {t : DataType}
    (h : build bound name definition = .ok t) :
    ∃ o nested, Outline.ofDefinition name definition = .ok o ∧
      o.shape.nested.mapM (fun p => build bound p.1 p.2) = .ok nested ∧ Assembled o nested t := by
  rw [build_eq, Except.bind_eq_ok_iff] at h
  obtain ⟨o, ho, h⟩ := h
  rw [Except.bind_eq_ok_iff] at h
  obtain ⟨nested, hnested, h⟩ := h
  exact ⟨o, nested, ho, hnested, assemble_eq_ok h⟩

/-- A property of an object, under its name without a mark, and the entry it is built from. -/
def BuiltFrom (bound : Bool) (entry : Value × Value) (property : String × DataType) : Prop :=
  property.1 = Text.removeSuffix '?' entry.1.shown ∧
    build bound entry.1.shown entry.2 = .ok property.2

theorem builtFrom_of_mapM {bound : Bool} {entries : Mapping} {nested : List DataType}
    (h : (entries.map fun e => (e.1.shown, e.2)).mapM (fun p => build bound p.1 p.2) = .ok nested) :
    List.Forall₂ (BuiltFrom bound) entries
      (((entries.map fun e => (e.1.shown, e.2)).map fun p => Text.removeSuffix '?' p.1).zip
        nested) := by
  induction entries generalizing nested with
  | nil => exact .nil
  | cons e rest ih =>
      rw [List.map_cons, List.mapM_cons, Except.bind_eq_ok_iff] at h
      obtain ⟨t, ht, h⟩ := h
      rw [Except.bind_eq_ok_iff] at h
      obtain ⟨ts, hts, h⟩ := h
      obtain rfl := Except.ok.inj h
      exact .cons ⟨rfl, ht⟩ (ih hts)

/-- An object's properties are built from those that its declaration lists, in order. -/
theorem build_object {bound : Bool} {name : String} {definition : Value} {c : Common}
    {f : ObjectFacets} {properties : List (String × DataType)}
    (h : build bound name definition = .ok (.object c f properties)) :
    ∃ built, List.Forall₂ (BuiltFrom bound) (Declaration.properties c.declaration) built ∧
      properties = Table.ofList built := by
  obtain ⟨o, nested, ho, hnested, ha⟩ := build_eq_ok h
  obtain ⟨listed, hshape⟩ : ∃ listed, o.shape = .object listed := by
    have hkind := ha.kind
    cases hs : o.shape with
    | object listed => exact ⟨listed, rfl⟩
    | scalar word => exact absurd (hs ▸ hkind).symm word.kind_ne_object
    | _ =>
        rw [hs] at hkind
        cases hkind
  obtain ⟨c', f', ht⟩ := ha.object listed hshape
  cases ht
  have hlisted := Outline.readProperties_nested (Outline.ofDefinition_object ho hshape)
  have hd : c.declaration = o.declaration := ha.declaration
  rw [hshape, Shape.nested] at hnested
  rw [hd]
  subst hlisted
  exact ⟨_, builtFrom_of_mapM hnested, rfl⟩

/-! ## Faults of a declaration -/

theorem assemble_fault {bound : Bool} {o : Outline} {nested : List DataType} {f : Fault}
    (h : assemble bound o nested = .error f) : f.OfDeclaration := by
  have hread : ∀ {α : Type} {record : Record} {x : Checked α}, x.toExcept record = .error f →
      f.OfDeclaration := fun hx => by
    obtain ⟨keys, rfl⟩ := Checked.toExcept_eq_error hx
    exact ⟨by simp, by simp [Fault.family], by simp [Fault.family], by simp [Fault.family]⟩
  obtain ⟨name, d, shape⟩ := o
  cases shape with
  | embedded schema =>
      simp only [assemble] at h
      exact hread (Except.map_eq_error_iff.1 h)
  | _ => exact hread h

theorem build_fault {bound : Bool} {name : String} {definition : Value} {f : Fault}
    (h : build bound name definition = .error f) : f.OfDeclaration := by
  generalize hw : definition.weight = w
  induction w using Nat.strongRecOn generalizing name definition with
  | ind w ih =>
      rw [build_eq, Except.bind_eq_error_iff] at h
      rcases h with h | ⟨o, ho, h⟩
      · exact Outline.ofDefinition_fault h
      · rw [Except.bind_eq_error_iff] at h
        rcases h with h | ⟨nested, -, h⟩
        · obtain ⟨p, hp, hf⟩ := exists_of_mapM_eq_error h
          have hlt := Outline.weight_lt_of_nested ho hp
          exact ih _ (by omega) hf rfl
        · exact assemble_fault h

end DataType

end Raml
