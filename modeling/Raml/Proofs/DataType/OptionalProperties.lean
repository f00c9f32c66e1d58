import Raml.Proofs.DataType.NestedTypes
import Raml.Proofs.DataType.Twins

/-! # Optional properties

A question mark at the end of a property's name, or of its type expression,
makes the property optional, as long as its declaration does not say itself
whether it is required. One shape of declaration takes no notice: where the type
is a schema that is decoded already, the outline is made before any mark is
looked at, and the property stays required. What is optional counts when a value
is checked: a value without the property that satisfies the rest of the object
is accepted if the property is optional, and refused for its absence if not.
-/

namespace Raml

/-! ## Declarations with a mark -/

namespace Declaration

def SetsRequired (definition : Value) : Prop :=
  ∃ d : Mapping, definition = .map d ∧ d.hasField "required" = true

/-- Whether a name, or the expression of a type that is no schema, has a mark at its end. -/
def IsMarked (name : String) (definition : Value) : Prop :=
  Text.endsIn '?' name = true ∨
    ∃ d expression, normalize definition = .ok d ∧ d.field? "type" = some (.text expression) ∧
      Outline.isSchema expression = false ∧ Text.endsIn '?' (Text.trimEnd expression) = true

/-- Whether the type of a declaration is a schema that is decoded already. -/
def IsDecoded (definition : Value) : Prop :=
  (∃ schema, definition = .embedded schema) ∨
    ∃ d schema, normalize definition = .ok d ∧ d.field? "type" = some (.map schema)

/-- Whether a mark makes what is declared optional. -/
structure IsOptional (name : String) (definition : Value) : Prop where
  marked : IsMarked name definition
  undecoded : ¬ IsDecoded definition

theorem normalize_required {definition : Value} {d : Mapping}
    (h : normalize definition = .ok d) (hset : ¬ SetsRequired definition) :
    d.field? "required" = none := by
  cases definition with
  | text e =>
      obtain rfl := Except.ok.inj h
      rfl
  | null =>
      obtain rfl := Except.ok.inj h
      rfl
  | map m =>
      obtain rfl := Except.ok.inj h
      rw [field?_withType m (by decide) (by decide), ← Option.not_isSome_iff_eq_none]
      exact fun hsome => hset ⟨m, rfl, hsome⟩
  | _ => cases h

/-- Where the type is a text, a mark counts. -/
theorem isOptional_iff_of_text {definition : Value} {d : Mapping} {expression : String}
    (h : normalize definition = .ok d) (he : d.field? "type" = some (.text expression))
    (name : String) : IsOptional name definition ↔ Outline.isOptional name expression = true := by
  have hundecoded : ¬ IsDecoded definition := by
    rintro (⟨schema, rfl⟩ | ⟨d', schema, h', hs⟩)
    · cases h
    · obtain rfl := Except.ok.inj (h.symm.trans h')
      cases he.symm.trans hs
  rw [Outline.isOptional, Bool.or_eq_true, Bool.and_eq_true, Bool.not_eq_true']
  constructor
  · rintro ⟨hname | ⟨d', expression', h', he', hs, hend⟩, -⟩
    · exact .inl hname
    · obtain rfl := Except.ok.inj (h.symm.trans h')
      obtain rfl := Value.text.inj (Option.some.inj (he.symm.trans he'))
      exact .inr ⟨hs, hend⟩
  · rintro (hname | ⟨hs, hend⟩)
    · exact ⟨.inl hname, hundecoded⟩
    · exact ⟨.inr ⟨d, expression, h, he, hs, hend⟩, hundecoded⟩

end Declaration

namespace Outline

/-- Taking off a mark records that what is declared is not required, and nothing else does. -/
theorem settleOptional_required {d : Mapping} (h : d.field? "required" = none)
    (name expression : String) :
    (settleOptional name d expression).2.1.field? "required" =
      if isOptional name expression = true then some (.bool false) else none := by
  have hdefault : withDefault d "required" (.bool false) = d.setField "required" (.bool false) := by
    have hnot : d.hasField "required" = false := by
      rw [Mapping.hasField, Table.has, show Table.get? d _ = none from h]
      rfl
    simp [withDefault, hnot]
  unfold settleOptional
  split
  · dsimp only
    split <;> simp [hdefault]
  · exact h

end Outline

/-! ## Built types -/

theorem Common.read_required_absent {name : String} {d : Mapping} {c : Common}
    (h : Common.read name d = .ok c) (habsent : d.field? "required" = none) :
    c.required = true := by
  have hread := (Common.read_fields h).1
  rw [Field.read_absent habsent habsent] at hread
  exact (Checked.ok.inj hread).symm

theorem Common.read_required_false {name : String} {d : Mapping} {c : Common}
    (h : Common.read name d = .ok c) (hfalse : d.field? "required" = some (.bool false)) :
    c.required = false := by
  have hread := (Common.read_fields h).1
  simp only [Field.read, hfalse, Field.truth?] at hread
  exact (Checked.ok.inj hread).symm

namespace DataType

open Declaration

variable {bound : Bool} {name : String} {definition : Value} {u : DataType}

/-- Unless its declaration says so itself, a type is required if no mark makes it optional. -/
theorem build_required (h : build bound name definition = .ok u)
    (hset : ¬ SetsRequired definition) :
    u.required = false ↔ IsOptional name definition := by
  obtain ⟨o, nested, ho, -, ha⟩ := build_eq_ok_iff.1 h
  obtain ⟨c, hc, hrequired⟩ := (assemble_eq_ok_iff.1 ha).common
  rw [← hrequired]
  rcases Outline.ofDefinition_cases ho with
    ⟨schema, rfl, rfl⟩ | ⟨d, hd, ⟨schema, hs, rfl⟩ | ⟨expression, he, htext⟩⟩
  · rw [Common.read_required_absent hc rfl]
    exact ⟨nofun, fun hoptional => absurd (.inl ⟨schema, rfl⟩) hoptional.undecoded⟩
  · rw [Common.read_required_absent hc (normalize_required hd hset)]
    exact ⟨nofun, fun hoptional => absurd (.inr ⟨d, schema, hd, hs⟩) hoptional.undecoded⟩
  · have hfield := Outline.settleOptional_required (normalize_required hd hset) name expression
    have hdecl := (Outline.ofText_spec htext).1
    rw [Outline.ofText_eq] at htext
    rw [Outline.ofSettled_described htext, hdecl] at hc
    rw [isOptional_iff_of_text hd he]
    by_cases hopt : Outline.isOptional name expression = true
    · rw [if_pos hopt] at hfield
      simp [hopt, Common.read_required_false hc hfield]
    · rw [if_neg hopt] at hfield
      simp [hopt, Common.read_required_absent hc hfield]

def withoutProperty (name : String) : DataType → DataType
  | .object c f properties => .object c f (Table.erase properties name)
  | t => t

end DataType

/-! ## Values without a property -/

namespace Validation

variable {check : Check} {entries : Mapping} {properties : List (String × DataType)}
  {name : String} {u : DataType}

/-- Once all other properties are fine, what remains to check of a property that is left out is
whether it is required. -/
theorem checkProperties_without (hdistinct : Table.Distinct properties)
    (hget : Table.get? properties name = some u) (habsent : entries.field? name = none)
    (hrest : checkProperties check entries (Table.erase properties name) = .ok ()) :
    checkProperties check entries properties = require name (!u.required) .requiredProperty := by
  induction properties with
  | nil => cases hget
  | cons p rest ih =>
      obtain ⟨key, t⟩ := p
      rw [checkProperties_cons]
      by_cases hkey : key = name
      · subst hkey
        obtain rfl : t = u := by simpa [Table.get?] using hget
        have herase : Table.erase ((key, t) :: rest) key = rest := by
          have hkeys : ∀ k ∈ Table.keys rest, (k == key) = false := fun k hk => by
            rw [BEq.comm]
            exact hdistinct.head hk
          simpa [Table.erase] using Table.erase_of_absent hkeys
        rw [herase] at hrest
        rw [habsent, hrest]
        cases require key (!t.required) .requiredProperty <;> rfl
      · have herase : Table.erase ((key, t) :: rest) name =
            (key, t) :: Table.erase rest name := by
          simp [Table.erase, hkey]
        rw [herase, checkProperties_cons, Except.then_eq_ok_iff] at hrest
        have hget' : Table.get? rest name = some u := by simpa [Table.get?, hkey] using hget
        rw [hrest.1, ← ih hdistinct.tail hget' hrest.2]
        rfl

/-- A property that a value does not have makes no difference to which of its keys are declared. -/
theorem undeclaredKeys_without (properties : List (String × DataType))
    (habsent : entries.field? name = none) :
    undeclaredKeys (Table.erase properties name) entries = undeclaredKeys properties entries := by
  refine List.filter_congr fun k hk => ?_
  cases k with
  | text key =>
      have hne : (Value.text key == .text name) = false :=
        (Table.get?_eq_none_iff entries _).1 habsent _ hk
      have hget := Table.get?_erase properties name key fun k' _ hk' => by
        obtain rfl := eq_of_beq hk'
        rw [beq_eq_false_iff_ne]
        rintro rfl
        exact absurd hne (by simp)
      simp only [Table.has, hget]
  | _ => rfl

/-- Where a value without a property satisfies the rest of an object, the verdict is whether the
property is required. -/
theorem checkObject_without {c : Common} {f : ObjectFacets} (hdistinct : Table.Distinct properties)
    (hget : Table.get? properties name = some u) (habsent : entries.field? name = none)
    (hrest : checkObject check c f (Table.erase properties name) (.map entries) = .ok ()) :
    checkObject check c f properties (.map entries) =
      require name (!u.required) .requiredProperty := by
  simp only [checkObject, Except.then_eq_ok_iff, undeclaredKeys_without _ habsent] at hrest ⊢
  obtain ⟨hleast, hmost, hproperties, hdeclared, hmember⟩ := hrest
  rw [checkProperties_without hdistinct hget habsent hproperties, hleast, hmost, hdeclared, hmember]
  cases require name (!u.required) .requiredProperty <;> rfl

theorem validate_without {r : Registry} {c : Common} {f : ObjectFacets}
    (hdistinct : Table.Distinct properties) (hget : Table.get? properties name = some u)
    (habsent : entries.field? name = none)
    (hrest : (DataType.object c f (Table.erase properties name)).validate r (.map entries) =
      .ok ()) :
    (DataType.object c f properties).validate r (.map entries) =
      require name (!u.required) .requiredProperty := by
  have hbound : depthBound r (.object c f (Table.erase properties name)) (.map entries) =
      depthBound r (.object c f properties) (.map entries) := rfl
  unfold DataType.validate at hrest ⊢
  rw [hbound] at hrest
  generalize depthBound r (.object c f properties) (.map entries) = fuel at hrest ⊢
  cases fuel with
  | zero => cases hrest
  | succ fuel => exact checkObject_without hdistinct hget habsent hrest

end Validation

namespace DataType

open Declaration

variable {bound : Bool} {name : String} {d : Mapping} {t : DataType}

theorem build_object_properties (h : build bound name (.map d) = .ok t) (hk : t.kind = .object) :
    ∃ c f built, t = .object c f (Table.ofList built) ∧
      List.Forall₂ (BuiltFrom bound) (Declaration.properties d) built := by
  cases t with
  | object c f properties =>
      obtain ⟨built, hbuilt, rfl⟩ := build_object_declared h rfl
      have hsame : Declaration.properties (withType d) = Declaration.properties d := by
        simp only [Declaration.properties, Mapping.field,
          field?_withType d (s := "properties") (by decide) (by decide)]
      exact ⟨c, f, built, rfl, hsame ▸ hbuilt⟩
  | scalar c s => cases s <;> cases hk
  | _ => cases hk

/-- A property that does not say itself whether it is required is optional exactly if it has a mark, on
its key or on its type expression, and its type is no decoded schema. A value that has all but this
property as it should be is then accepted without it, and refused for its absence otherwise. -/
theorem property_optional_iff_marked (h : build bound name (.map d) = .ok t)
    (hk : t.kind = .object) {key v : Value} (hmem : (key, v) ∈ Declaration.properties d)
    (hset : ¬ SetsRequired v) :
    ∃ u, build bound key.shown v = .ok u ∧ (u.required = false ↔ IsOptional key.shown v) ∧
      (lastNamed (Declaration.properties d) (propertyName key) = some (key, v) →
        t.property? (propertyName key) = some u ∧
          ∀ r (entries : Mapping), entries.field? (propertyName key) = none →
            (t.withoutProperty (propertyName key)).validate r (.map entries) = .ok () →
              (IsOptional key.shown v → t.validate r (.map entries) = .ok ()) ∧
                (¬ IsOptional key.shown v → t.validate r (.map entries) =
                  .error (.violation (propertyName key) .requiredProperty))) := by
  obtain ⟨c, f, built, rfl, hbuilt⟩ := build_object_properties h hk
  obtain ⟨b, -, hb⟩ := exists_of_forall₂_left hbuilt hmem
  have hrequired := build_required hb.2 hset
  refine ⟨b.2, hb.2, hrequired, fun hlast => ?_⟩
  have hrel := get?_ofList_builtFrom hbuilt (propertyName key)
  rw [hlast] at hrel
  obtain ⟨u, hget, hu⟩ := exists_of_rel hrel
  obtain rfl := Except.ok.inj (hu.symm.trans hb.2)
  refine ⟨hget, fun r entries habsent hrest => ?_⟩
  rw [Validation.validate_without (Table.distinct_ofList built) hget habsent hrest]
  refine ⟨fun hoptional => ?_, fun hnot => ?_⟩
  · rw [hrequired.2 hoptional]
    rfl
  · have htrue : b.2.required = true := by
      rw [← Bool.not_eq_false]
      exact fun hfalse => hnot (hrequired.1 hfalse)
    rw [htrue]
    rfl

def objectOf (key : String) (definition : Value) : Mapping :=
  [(.text "type", .text "object"), (.text "properties", .map [(.text key, definition)])]

def noted : Registry.Registration :=
  .ofDeclaration "Song" (.map (objectOf "note?" .null)) rfl

/-- The mark on its name lets the note of a song be left out. -/
theorem property_optional_iff_marked_note :
    ¬ SetsRequired .null ∧ (noted.type.withoutProperty "note").validate [] (.map []) = .ok () ∧
      noted.type.validate [] (.map []) = .ok () := by
  have hbuild : build true "Song" (.map (objectOf "note?" .null)) = .ok noted.type :=
    Except.eq_ok_get rfl
  have hset : ¬ SetsRequired .null := fun ⟨d, hd, _⟩ => by cases hd
  have hmem : (.text "note?", .null) ∈ Declaration.properties (objectOf "note?" .null) := .head _
  have hoptional : IsOptional "note?" .null := (isOptional_iff_of_text rfl rfl _).2 (by decide)
  have hrest : (noted.type.withoutProperty "note").validate [] (.map []) = .ok () :=
    Validation.verdict_eq_accepts_iff.1 (by decide)
  obtain ⟨u, -, -, hlast⟩ := property_optional_iff_marked hbuild rfl hmem hset
  exact ⟨hset, hrest, ((hlast rfl).2 [] [] rfl hrest).1 hoptional⟩

/-- A property whose type is a schema that is decoded already. -/
def decodedFacets : Mapping := [(.text "type", .map [(.text "type", .text "object")])]

theorem decodedFacets_not_setsRequired : ¬ SetsRequired (.map decodedFacets) := by
  rintro ⟨d, hd, hrequired⟩
  obtain rfl := Value.map.inj hd
  exact absurd hrequired (by decide)

/-- A mark on the name of such a property is passed over. -/
theorem not_required_iff_unmarked :
    ¬ ∀ (bound : Bool) (name : String) (d : Mapping) (t u : DataType) (key v : Value),
        build bound name (.map d) = .ok t → t.kind = .object →
          (key, v) ∈ Declaration.properties d → ¬ SetsRequired v →
            (∀ schema, v ≠ .embedded schema) → build bound key.shown v = .ok u →
              (u.required = true ↔ ¬ IsMarked key.shown v) := by
  intro hclaim
  have hiff := hclaim true "x" (objectOf "config?" (.map decodedFacets)) _ _ (.text "config?")
    (.map decodedFacets) (Except.eq_ok_get rfl) rfl (.head _)
    decodedFacets_not_setsRequired (fun schema h => by cases h) (Except.eq_ok_get rfl)
  exact hiff.1 rfl (.inl (by decide))

end DataType

end Raml
