import Raml.Proofs.DataType.NestedTypes
import Raml.Proofs.Registry.OwnProperties
import Raml.Proofs.Validation.Conformance

/-! # Names of offending properties

A violation names the type that finds it. The type of a property is built under
the name of the property, and so is the type that a reference with facets
stands for; a reference without any hands the value to its target, which
reports under its own name. Where the rest of an object is fine its answer is
that of the property at fault.
-/

namespace Raml

open DataType

/-! ## Names that types are built under -/

def Kind.isSchema : Kind → Bool
  | .json | .xml => true
  | _ => false

namespace Outline

/-- Only a schema does without the name it is declared under. -/
theorem ofDefinition_name {name : String} {definition : Value} {o : Outline}
    (h : ofDefinition name definition = .ok o) (hs : o.shape.kind.isSchema = false) :
    o.name = Text.removeSuffix '?' name := by
  obtain ⟨schema, -, rfl⟩ | ⟨d, -, ⟨schema, -, rfl⟩ | ⟨expression, -, ho⟩⟩ := ofDefinition_cases h
  · cases hs
  · cases hs
  · rw [ofText_eq, ofSettled_eq_ok_iff, settleOptional_name] at ho
    cases ho with
    | xml | json => cases hs
    | _ => rfl

end Outline

namespace DataType

variable {bound : Bool} {name : String} {definition : Value} {t u : DataType}

theorem build_name (h : build bound name definition = .ok t) (hs : t.kind.isSchema = false) :
    t.name = Text.removeSuffix '?' name := by
  obtain ⟨o, nested, ho, -, hassemble⟩ := build_eq_ok_iff.1 h
  have ha := assemble_eq_ok hassemble
  rw [ha.name, Outline.ofDefinition_name ho (ha.kind ▸ hs)]

theorem IsBuilt.property?_build {p : String} (h : t.IsBuilt) (hp : t.property? p = some u) :
    ∃ bound key definition, Declaration.propertyName key = p ∧
      DataType.build bound key.shown definition = .ok u := by
  have hk : t.kind = .object := by
    cases t with
    | object => rfl
    | _ => cases hp
  obtain ⟨bound, hrel⟩ := h.property?_rel hk
  have hrel := hrel p
  rw [hp] at hrel
  generalize hlast : Declaration.lastNamed (Declaration.properties t.declaration) p = last at hrel
  cases hrel with
  | some hu => exact ⟨bound, _, _, (Declaration.lastNamed_eq_some hlast).2, hu⟩

theorem IsBuilt.property?_name {p : String} (h : t.IsBuilt) (hp : t.property? p = some u)
    (hs : u.kind.isSchema = false) : u.name = p := by
  obtain ⟨bound, key, definition, hkey, hu⟩ := h.property?_build hp
  exact (build_name hu hs).trans hkey

/-! ## Objects with one property at fault -/

def anything : DataType :=
  .scalar
    { name := "", required := true, default := .null, sample := .null, samples := .null,
      displayName := none, description := none, enum := none, parent := none, declaration := [] }
    .any

def freeProperty (p : String) : DataType → DataType
  | .object c f properties => .object c f (Table.insert properties p anything)
  | t => t

end DataType

namespace Validation

variable {check : Check} {entries : Mapping} {properties : List (String × DataType)}
  {p : String} {u free : DataType} {w : Value}

/-- Once all other properties are fine, what remains to check is the property at fault. -/
theorem checkProperties_freed (hget : Table.get? properties p = some u)
    (hw : entries.field? p = some w)
    (hrest : checkProperties check entries (Table.insert properties p free) = .ok ()) :
    checkProperties check entries properties = check u w := by
  induction properties with
  | nil => cases hget
  | cons e rest ih =>
      obtain ⟨key, t⟩ := e
      rw [checkProperties_cons]
      by_cases hkey : key = p
      · subst hkey
        obtain rfl : t = u := by simpa [Table.get?] using hget
        have hfree : Table.insert ((key, t) :: rest) key free = (key, free) :: rest := by
          simp [Table.insert]
        rw [hfree, checkProperties_cons, Except.then_eq_ok_iff] at hrest
        rw [hw, hrest.2]
        dsimp only
        cases check t w <;> rfl
      · have hfree : Table.insert ((key, t) :: rest) p free =
            (key, t) :: Table.insert rest p free := by
          simp [Table.insert, hkey]
        rw [hfree, checkProperties_cons, Except.then_eq_ok_iff] at hrest
        have hget' : Table.get? rest p = some u := by simpa [Table.get?, hkey] using hget
        rw [hrest.1, ← ih hget' hrest.2]
        rfl

theorem undeclaredKeys_freed (entries : Mapping) (hget : Table.get? properties p = some u) :
    undeclaredKeys (Table.insert properties p free) entries =
      undeclaredKeys properties entries := by
  refine List.filter_congr fun k _ => ?_
  cases k with
  | text key =>
      simp only [Table.has, Table.get?_insert]
      by_cases hkey : p = key
      · subst hkey
        simp [hget]
      · simp [hkey]
  | _ => rfl

theorem checkObject_freed {c : Common} {f : ObjectFacets} (hget : Table.get? properties p = some u)
    (hw : entries.field? p = some w)
    (hrest : checkObject check c f (Table.insert properties p free) (.map entries) = .ok ()) :
    checkObject check c f properties (.map entries) = check u w := by
  simp only [checkObject, Except.then_eq_ok_iff, undeclaredKeys_freed entries hget] at hrest ⊢
  obtain ⟨hleast, hmost, hproperties, hdeclared, hmember⟩ := hrest
  rw [checkProperties_freed hget hw hproperties, hleast, hmost, hdeclared, hmember]
  cases check u w <;> rfl

theorem validate_freed {r : Registry} {t : DataType} (hp : t.property? p = some u)
    (hw : entries.field? p = some w)
    (hrest : (t.freeProperty p).validate r (.map entries) = .ok ()) :
    ∃ fuel, t.validate r (.map entries) = validateWithin r (fuel + 2) u w := by
  cases t with
  | object c f properties =>
      have hbound : depthBound r (.object c f (Table.insert properties p anything)) (.map entries) =
          depthBound r (.object c f properties) (.map entries) := rfl
      -- An object, a reference in it and the target of that are three levels.
      obtain ⟨fuel, hfuel⟩ : ∃ fuel, depthBound r (.object c f properties) (.map entries) =
          fuel + 3 :=
        Nat.exists_eq_add_of_le' (Nat.le_trans (Nat.le_add_left 3 _)
          (Nat.le_mul_of_pos_left _ (Nat.succ_pos _)))
      rw [freeProperty, DataType.validate, hbound, hfuel] at hrest
      rw [DataType.validate, hfuel]
      exact ⟨fuel, checkObject_freed hp hw hrest⟩
  | _ => cases hp

end Validation

/-! ## Who reports a violation -/

namespace DataType

/-- The scalar type that checks the values of a type: the type itself, or what a reference stands
for. -/
inductive CheckedBy (r : Registry) : DataType → Common → Scalar → Prop
  | itself {c : Common} {s : Scalar} : CheckedBy r (.scalar c s) c s
  | target {c c' : Common} {target : String} {bound : Bool} {s : Scalar}
      (h : (DataType.reference c target bound).effective r = .ok (.scalar c' s)) :
      CheckedBy r (.reference c target bound) c' s

/-- The name that the type of a property `p` reports violations under: that of the property, with a
further mark taken off where it is built again, and that of the target for a bare reference. -/
inductive ReportedAs (r : Registry) (p : String) : DataType → String → Prop
  | itself {c : Common} {s : Scalar} : ReportedAs r p (.scalar c s) p
  | narrowed {c : Common} {target : String} {bound : Bool}
      (hnarrowed : (DataType.reference c target bound).IsNarrowed) :
      ReportedAs r p (.reference c target bound) (Text.removeSuffix '?' p)
  | bare {c : Common} {target : String} {bound : Bool} {e : DataType}
      (hget : r.get? target = some e)
      (hbare : ¬ (DataType.reference c target bound).IsNarrowed) :
      ReportedAs r p (.reference c target bound) e.name

variable {r : Registry} {u : DataType} {c : Common} {s : Scalar} {p : String}

theorem CheckedBy.validateWithin (h : CheckedBy r u c s) (fuel : Nat) (w : Value) :
    Validation.validateWithin r (fuel + 2) u w = Validation.checkScalar c s w := by
  cases h with
  | itself => rfl
  | target h =>
      rw [Validation.validateWithin, h]
      rfl

theorem CheckedBy.reportedAs (hr : r.IsSettled) (h : CheckedBy r u c s) (hu : u.name = p)
    (hs : s.kind.isSchema = false) : ReportedAs r p u c.name := by
  cases h with
  | itself => exact hu ▸ .itself
  | @target c₀ _ _ _ _ h =>
      obtain ⟨-, e, hget, ⟨hbare, rfl⟩ | ⟨hnarrowed, hbuild⟩⟩ := hr.effective_cases h
      · exact .bare hget hbare
      · have hname : c.name = Text.removeSuffix '?' c₀.name := build_name hbuild hs
        have hp : c₀.name = p := hu
        rw [hname, hp]
        exact .narrowed hnarrowed

/-- That is the name of the property, a bare reference and a mark in the name apart. -/
theorem ReportedAs.eq_property {subject : String} (h : ReportedAs r p u subject)
    (hwhich : u.target? = none ∨ u.IsNarrowed) (hmark : Text.endsIn '?' p = false) :
    subject = p := by
  cases h with
  | itself => rfl
  | narrowed => exact Text.removeSuffix_of_not_endsIn hmark
  | bare hget hbare =>
      obtain htarget | hnarrowed := hwhich
      · cases htarget
      · exact absurd hnarrowed hbare

end DataType

namespace Registry

variable {r : Registry}

/-- Where all but the value of one scalar property is fine, the object reports that value under the
name of the property or, if its type is a reference without facets, under that of the target; unless
a facet is one that no value can be compared with. -/
theorem property_reportedAs (hr : r.WellFormed) (ha : r.Applies) {name p : String}
    {t u : DataType} (hget : r.applied.get? name = some t) (hp : t.property? p = some u)
    {c : Common} {s : Scalar} (hchecked : CheckedBy r.applied u c s)
    (hs : s.kind.isSchema = false) {entries : Mapping} {w : Value}
    (hw : entries.field? p = some w)
    (hrest : (t.freeProperty p).validate r.applied (.map entries) = .ok ())
    (hbad : ¬ Conforms r.applied u w) :
    ∃ subject, ReportedAs r.applied p u subject ∧
      (u.target? = none ∨ u.IsNarrowed → Text.endsIn '?' p = false → subject = p) ∧
      ((∃ k, t.validate r.applied (.map entries) = .error (.violation subject k)) ∨
        ∃ f, Validation.CannotCompare s w f ∧ t.validate r.applied (.map entries) = .error f) := by
  have hsettled := ha.isSettled hr
  have hreported : ReportedAs r.applied p u c.name := by
    refine hchecked.reportedAs hsettled ((hsettled.built hget).property?_name hp ?_) hs
    cases hchecked with
    | itself => exact hs
    | target => rfl
  refine ⟨c.name, hreported, hreported.eq_property, ?_⟩
  -- What is left of the object's answer is that of the scalar, which does not accept the value.
  obtain ⟨fuel, hvalidate⟩ := Validation.validate_freed hp hw hrest
  have hdecides := Validation.decides_validateWithin hsettled (fuel + 2) u w
  rw [hvalidate]
  rw [hchecked.validateWithin] at hdecides ⊢
  have hplain : ∀ schema, s ≠ .json schema := fun schema heq => by
    subst heq
    cases hs
  cases hcheck : Validation.checkScalar c s w with
  | ok => exact absurd (hdecides.accepted hcheck) hbad
  | error f =>
      have hfault : FailsOnly
          (fun f => (∃ k, f = .violation c.name k) ∨ Validation.CannotCompare s w f)
          (Validation.checkScalar c s w) :=
        Validation.failsOnly_checkScalar hplain (fun k => .inl ⟨k, rfl⟩) (fun f => .inr)
          fun _ _ _ heq => by
            subst heq
            cases hs
      obtain ⟨k, rfl⟩ | hcannot := hfault f hcheck
      · exact .inl ⟨k, rfl⟩
      · exact .inr ⟨f, hcannot, rfl⟩

/-! ## A song with two titles -/

def title : Registration := .ofDeclaration "Title" (.text "string") rfl

/-- A song with a short title and a title of any length. -/
def song : Registration :=
  .ofDeclaration "Song" (.map [(.text "type", .text "object"), (.text "properties", .map
    [(.text "title", .map [(.text "type", .text "Title"), (.text "maxLength", .int 3)]),
      (.text "album", .text "Title")])]) rfl

theorem song_isBuilt : ∀ a ∈ [title, song], a.type.IsBuilt := by
  simp only [List.forall_mem_cons, List.not_mem_nil, false_implies, implies_true, and_true]
  exact ⟨Registration.ofDeclaration_isBuilt _ _ _, Registration.ofDeclaration_isBuilt _ _ _⟩

def music : Registry := run [.add title, .add song]

theorem music_wellFormed : music.WellFormed := run_wellFormed [.add title, .add song] song_isBuilt

theorem music_applies : music.Applies := by decide

def textPattern? : DataType → Option (Option String)
  | .scalar _ (.string f) => some f.pattern
  | _ => none

theorem exists_song_property (p : String) (entries : Mapping) (w : Value) (narrowed : Bool)
    (h : (music.applied.get? "Song").bind (fun t => (t.property? p).map fun u =>
        (u.target?, decide u.IsNarrowed, (u.effective music.applied).toOption.bind textPattern?,
          Validation.verdict ((t.freeProperty p).validate music.applied (.map entries)),
          Validation.verdict (u.validate music.applied w))) =
      some (some "Title", narrowed, some none, .accepts, .rejects)) :
    ∃ t u c f, music.applied.get? "Song" = some t ∧ t.property? p = some u ∧
      decide u.IsNarrowed = narrowed ∧ CheckedBy music.applied u c (.string f) ∧ f.pattern = none ∧
      (t.freeProperty p).validate music.applied (.map entries) = .ok () ∧
      ¬ Conforms music.applied u w := by
  obtain ⟨t, hget, h⟩ := Option.bind_eq_some_iff.1 h
  obtain ⟨u, hp, h⟩ := Option.map_eq_some_iff.1 h
  obtain ⟨htarget, h⟩ := Prod.mk.inj h
  obtain ⟨hnarrowed, h⟩ := Prod.mk.inj h
  obtain ⟨hpattern, h⟩ := Prod.mk.inj h
  obtain ⟨hfree, hrejected⟩ := Prod.mk.inj h
  obtain ⟨e, he, hpattern⟩ := Option.bind_eq_some_iff.1 hpattern
  have heffective := Except.eq_ok_of_toOption he
  have hsettled := music_applies.isSettled music_wellFormed
  have hconforms : ¬ Conforms music.applied u w := by
    obtain ⟨fault, hfault, hviolation⟩ := Validation.verdict_eq_rejects_iff.1 hrejected
    exact (Validation.decides_validateWithin hsettled _ u w).violated fault hfault hviolation
  cases u with
  | reference c target bound =>
      cases e with
      | scalar c' s =>
          cases s with
          | string f =>
              exact ⟨t, _, c', f, hget, hp, hnarrowed, .target heffective,
                Option.some.inj hpattern, Validation.verdict_eq_accepts_iff.1 hfree, hconforms⟩
          | _ => cases hpattern
      | _ => cases hpattern
  | _ => cases htarget

/-- A title that is too long is reported as the title of the song. -/
theorem property_reportedAs_title :
    ∃ t, music.applied.get? "Song" = some t ∧ ∃ k, t.validate music.applied
      (.map [(.text "title", .text "Overture"), (.text "album", .text "Opera")]) =
        .error (.violation "title" k) := by
  obtain ⟨t, u, c, f, hget, hp, hnarrowed, hchecked, hpattern, hfree, hbad⟩ :=
    exists_song_property "title"
      [(.text "title", .text "Overture"), (.text "album", .text "Opera")] (.text "Overture") true
      (by decide)
  obtain ⟨subject, -, hsubject, ⟨k, hk⟩ | ⟨fault, hcannot, -⟩⟩ := property_reportedAs
    music_wellFormed music_applies hget hp hchecked rfl rfl hfree hbad
  · obtain rfl := hsubject (.inr (of_decide_eq_true hnarrowed)) (by decide)
    exact ⟨t, hget, k, hk⟩
  · cases hcannot with
    | pattern hsource => exact absurd (hpattern.symm.trans hsource) (by simp)
    | divisor hs => exact absurd hs (by simp)

def subject? : Except Fault Unit → Option String
  | .error (.violation subject _) => some subject
  | _ => none

/-- An album that is no text is reported as a title. -/
theorem not_always_reportedAs_property :
    ¬ ∀ (r : Registry) (name p : String) (t u : DataType) (c : Common) (s : Scalar)
        (entries : Mapping) (w : Value), r.WellFormed → r.Applies →
        r.applied.get? name = some t → t.property? p = some u → CheckedBy r.applied u c s →
        s.kind.isSchema = false → entries.field? p = some w →
        (t.freeProperty p).validate r.applied (.map entries) = .ok () →
        ¬ Conforms r.applied u w →
          ∃ k, t.validate r.applied (.map entries) = .error (.violation p k) := by
  intro hclaim
  obtain ⟨t, u, c, f, hget, hp, -, hchecked, -, hfree, hbad⟩ := exists_song_property "album"
    [(.text "title", .text "Ode"), (.text "album", .int 5)] (.int 5) false (by decide)
  obtain ⟨k, hk⟩ := hclaim music "Song" "album" t u c _ _ _ music_wellFormed music_applies hget hp
    hchecked rfl rfl hfree hbad
  have hsubject : (music.applied.get? "Song").bind (fun t => subject? (t.validate music.applied
      (.map [(.text "title", .text "Ode"), (.text "album", .int 5)]))) = some "Title" := by
    decide
  rw [hget, Option.bind_some, hk] at hsubject
  have hsame : "album" = "Title" := Option.some.inj hsubject
  exact absurd hsame (by decide)

end Registry

end Raml
