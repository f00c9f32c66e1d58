import Raml.Proofs.Validation.Acceptance
import Raml.Proofs.Validation.Specialising

/-! # Enumerations

A declaration that lists the values of its type is built into a type that keeps
the list. The last thing a check asks is that the list holds the value, and a
reference hands its list down to the type that is built in its place. Null,
files and documents with a schema are checked without a look at the list.
-/

namespace Raml

open DataType

/-- The kinds whose values are not looked up in an enumeration. -/
def Kind.unlisted : List Kind := [.nil, .file, .json, .xml]

/-! ## The enumeration of a built type -/

theorem Common.read_enum {name : String} {d : Mapping} {c : Common} {e : Value}
    {members : List Value} (h : Common.read name d = .ok c) (he : d.field? "enum" = some e)
    (hmembers : Field.items? e = some members) : c.enum = some members := by
  have hread := (Common.read_fields h).2
  have hoptional : Field.optional Field.items? e = some (some members) := by
    cases e with
    | null => cases hmembers
    | _ => simp only [Field.optional, hmembers, Option.map_some]
  simp only [Field.readOptional, Field.read, he, hoptional] at hread
  exact (Checked.ok.inj hread).symm

namespace Outline

variable {name : String} {d : Mapping} {o : Outline}

/-- The facets of a mapping are those of its outline, the ones apart that tell the type and whether
a property is required. -/
theorem ofDefinition_field? (h : ofDefinition name (.map d) = .ok o) {s : String}
    (htype : "type" ≠ s) (hschema : "schema" ≠ s) (hrequired : "required" ≠ s) :
    o.declaration.field? s = d.field? s := by
  rw [ofDefinition_normal_field? h rfl htype hrequired, Declaration.field?_withType d htype hschema]

theorem ofDefinition_isDict (hd : Mapping.IsDict d) (h : ofDefinition name (.map d) = .ok o) :
    Mapping.IsDict o.declaration := by
  rcases ofDefinition_cases h with ⟨schema, hd, -⟩ | ⟨normal, hnormal, hrest⟩
  · cases hd
  · obtain rfl := Except.ok.inj hnormal
    have hdict := Declaration.withType_isDict hd
    rcases hrest with ⟨schema, -, rfl⟩ | ⟨expression, -, ho⟩
    · exact hdict
    · rw [(ofText_spec ho).1]
      exact settleOptional_isDict hdict name expression

end Outline

namespace DataType

theorem IsAssembly.enum {bound : Bool} {name : String} {d : Mapping} {nested : List DataType}
    {shape : Shape} {t : DataType} (h : IsAssembly bound name d nested shape t) :
    ∃ c, Common.read name (shape.described d) = .ok c ∧ c.enum = t.common.enum := by
  cases h with
  | scalar hc | object hc | array hc | union hc | reference hc | json hc | xml hc | embedded hc =>
      exact ⟨_, hc, rfl⟩

theorem build_enum {bound : Bool} {name : String} {d : Mapping} {t : DataType} {e : Value}
    {members : List Value} (h : build bound name (.map d) = .ok t)
    (he : d.field? "enum" = some e) (hmembers : Field.items? e = some members) :
    t.common.enum = some members := by
  obtain ⟨o, nested, ho, -, ht⟩ := build_eq_ok_iff.1 h
  obtain ⟨c, hc, henum⟩ := (assemble_eq_ok_iff.1 ht).enum
  have hkept := Outline.ofDefinition_field? ho (s := "enum") (by decide) (by decide) (by decide)
  rcases Outline.ofDefinition_described ho with hd | ⟨schema, hd, -⟩
  · rw [hd] at hc
    rw [← henum]
    exact Common.read_enum hc (hkept.trans he) hmembers
  · cases hd

end DataType

namespace Registry

variable {r : Registry} {t u : DataType}

theorem Follows.isBuilt (hr : r.WellFormed) {names : List String} (h : r.Follows t names u)
    (ht : t.IsBuilt) : u.IsBuilt ∧ u.target? = none := by
  induction h with
  | here hnone => exact ⟨ht, hnone⟩
  | step hget _ ih => exact ih (hr.built hget)

theorem resolve_isBuilt (hr : r.WellFormed) (ht : t.IsBuilt) (h : t.resolve r = .ok u) :
    u.IsBuilt ∧ u.target? = none := by
  obtain ⟨names, -, hfollows⟩ := resolve_eq_ok_iff.1 h
  exact hfollows.isBuilt hr ht

end Registry

/-! ## Accepted values -/

theorem Scalar.Admits.lists {c : Common} {s : Scalar} {v : Value} (h : s.Admits c v)
    (hkind : s.kind ∉ Kind.unlisted) : c.Lists v := by
  cases h with
  | any henum => exact henum
  | string _ _ henum => exact henum
  | number _ _ henum => exact henum
  | integer _ _ henum => exact henum
  | boolean henum => exact henum
  | temporal _ henum => exact henum
  | nil | file | json | xml => exact absurd (by simp [Scalar.kind, Kind.unlisted]) hkind

namespace Validation

open Registry

variable {r : Registry} {fuel : Nat} {t : DataType} {v : Value}

/-- The enumeration of a type that is no reference holds every accepted value, some kinds apart. -/
theorem lists_of_accepted (htarget : t.target? = none) (hkind : t.kind ∉ Kind.unlisted)
    (h : validateWithin r fuel t v = .ok ()) : t.common.Lists v := by
  cases fuel with
  | zero => cases h
  | succ fuel =>
      cases t with
      | scalar c s => exact (checkScalar_eq_ok_iff.1 h).lists hkind
      | object c f properties =>
          obtain ⟨-, -, -, -, -, henum⟩ := checkObject_eq_ok_iff.1 h
          exact henum
      | array c f items =>
          obtain ⟨-, -, -, -, -, henum⟩ := checkArray_eq_ok_iff.1 h
          exact henum
      | union c members => exact (checkUnion_eq_ok_iff.1 h).2
      | reference => cases htarget

theorem checkScalar_unlisted {c : Common} {s : Scalar} (hkind : s.kind ∈ Kind.unlisted)
    (enum : Option (List Value)) (v : Value) :
    checkScalar { c with enum } s v = checkScalar c s v := by
  cases s with
  | nil | file | json | xml => rfl
  | _ => simp [Scalar.kind, Kind.unlisted] at hkind

theorem validateWithin_unlisted (hkind : t.kind ∈ Kind.unlisted) (enum : Option (List Value))
    (fuel : Nat) (v : Value) :
    validateWithin r fuel (t.mapCommon fun c => { c with enum }) v = validateWithin r fuel t v := by
  cases t with
  | scalar c s =>
      cases fuel with
      | zero => rfl
      | succ fuel => exact checkScalar_unlisted hkind enum v
  | _ => simp [DataType.kind, Kind.unlisted] at hkind

/-- What a reference with an enumeration stands for is built from its target and keeps the
enumeration. -/
theorem effective_lists (hr : r.WellFormed) {bound : Bool} {name : String} {d : Mapping}
    {e : Value} {members : List Value} (hd : Mapping.IsDict d)
    (hbuild : build bound name (.map d) = .ok t) (he : d.field? "enum" = some e)
    (hmembers : Field.items? e = some members) {u : DataType} (hu : t.effective r = .ok u) :
    ∃ base, t.resolve r = .ok base ∧ u.kind = base.kind ∧ u.target? = none ∧
      u.common.enum = some members := by
  obtain ⟨o, nested, ho, -, ha⟩ := build_eq_ok hbuild
  have hdict := Outline.ofDefinition_isDict hd ho
  have hkept := Outline.ofDefinition_field? ho (s := "enum") (by decide) (by decide) (by decide)
  rw [← ha.declaration] at hdict hkept
  rw [he] at hkept
  have hnarrowed : (t.declaration.any fun f => isConstraining f.1) = true :=
    List.any_eq_true.2 ⟨_, Mapping.mem_of_field? hkept, rfl⟩
  obtain ⟨base, hbase, hu⟩ := Except.bind_eq_ok_iff.1 hu
  rw [if_pos hnarrowed] at hu
  obtain ⟨hbuilt, hnone⟩ := resolve_isBuilt hr (.build hbuild) hbase
  have hmerged := Declaration.field?_merge (s := "enum") base.declaration hdict.distinct (by decide)
    (by decide)
  rw [hkept, Option.some_or] at hmerged
  have hinherits : inheriting "" base t = .ok (u.withParent "") :=
    Except.map_eq_ok_iff.2 ⟨u, hu, rfl⟩
  have hkind := inheriting_kind hbuilt.isFaithful ((kind_ne_reference_iff base).2 hnone) hinherits
  rw [kind_withParent] at hkind
  refine ⟨base, hbase, hkind, ?_, build_enum hu hmerged hmembers⟩
  rw [← kind_ne_reference_iff, hkind, kind_ne_reference_iff]
  exact hnone

/-- Where a check of a type with an enumeration accepts, a type with that enumeration does that is no
reference and of the kind that the first one comes to. -/
theorem exists_listing (hr : r.WellFormed) {bound : Bool} {name : String} {d : Mapping}
    {e : Value} {members : List Value} (hd : Mapping.IsDict d) (he : d.field? "enum" = some e)
    (hmembers : Field.items? e = some members) (hbuild : build bound name (.map d) = .ok t)
    (hok : validateWithin r fuel t v = .ok ()) :
    ∃ base u fuel', t.resolve r = .ok base ∧ u.kind = base.kind ∧ u.target? = none ∧
      u.common.enum = some members ∧ validateWithin r fuel' u v = .ok () := by
  by_cases hnone : t.target? = none
  · have hresolve : t.resolve r = .ok t := resolve_eq_ok_iff.2 ⟨[], .nil, .here hnone⟩
    exact ⟨t, t, fuel, hresolve, rfl, hnone, build_enum hbuild he hmembers, hok⟩
  · cases t with
    | reference c target bound =>
        cases fuel with
        | zero => cases hok
        | succ fuel =>
            obtain ⟨u, hu, hok⟩ := Except.bind_eq_ok_iff.1 hok
            obtain ⟨base, hbase, hkind, hunone, henum⟩ :=
              effective_lists hr hd hbuild he hmembers hu
            exact ⟨base, u, fuel, hbase, hkind, hunone, henum, hok⟩
    | _ => exact absurd rfl hnone

end Validation

namespace Registry

variable {r : Registry}

/-- A type that lists its values accepts listed ones only, unless it comes to one of the kinds whose
check does not look at the list. -/
theorem listed_unless_unlisted (hr : r.WellFormed) {bound : Bool} {name : String} {d : Mapping}
    {e : Value} {members : List Value} {t : DataType} (hd : Mapping.IsDict d)
    (he : d.field? "enum" = some e) (hmembers : Field.items? e = some members)
    (hbuild : build bound name (.map d) = .ok t) :
    (∀ v, t.validate r v = .ok () →
        (∃ m ∈ members, v.same m = true) ∨
          ∃ u, t.resolve r = .ok u ∧ u.kind ∈ Kind.unlisted) ∧
      (t.kind ∈ Kind.unlisted → ∀ enum v,
        (t.mapCommon fun c => { c with enum }).validate r v = t.validate r v) := by
  refine ⟨fun v hok => ?_, fun hkind enum v => ?_⟩
  · obtain ⟨base, u, fuel, hbase, hkind, hnone, henum, hok⟩ :=
      Validation.exists_listing hr hd he hmembers hbuild hok
    by_cases hlisted : u.kind ∈ Kind.unlisted
    · exact .inr ⟨base, hbase, hkind ▸ hlisted⟩
    · have hmember := Validation.lists_of_accepted hnone hlisted hok members henum
      exact .inl (by simpa only [Value.same_iff] using hmember)
  · have hbound : Validation.depthBound r (t.mapCommon fun c => { c with enum }) v =
        Validation.depthBound r t v := by
      cases t <;> rfl
    unfold DataType.validate
    rw [hbound, Validation.validateWithin_unlisted hkind]

def listing (type : String) (members : List Value) : Mapping :=
  [(.text "type", .text type), (.text "enum", .list members)]

theorem listing_isDict (type : String) (members : List Value) :
    Mapping.IsDict (listing type members) :=
  .of_texts ["type", "enum"] rfl (by decide)

theorem listing_enum (type : String) (members : List Value) :
    (listing type members).field? "enum" = some (.list members) := by
  simp [listing, Mapping.field?, Table.get?]

def level : Registration := .ofDeclaration "Level" (.map [(.text "type", .text "integer")]) rfl

theorem level_isBuilt : ∀ a ∈ [level], a.type.IsBuilt := by
  intro a ha
  obtain rfl := List.mem_singleton.1 ha
  exact Registration.ofDeclaration_isBuilt _ _ _

def lowLevel : Registration :=
  .ofDeclaration "low" (.map (listing "Level" [.int 1, .int 2])) rfl

/-- Of all levels the subtype takes the two it lists. -/
theorem listed_unless_unlisted_level :
    lowLevel.type.validate (run [.add level]) (.int 2) = .ok () ∧
      ∀ v, lowLevel.type.validate (run [.add level]) v = .ok () →
        ∃ m ∈ [Value.int 1, .int 2], v.same m = true := by
  have hbuild : build true "low" (.map (listing "Level" [.int 1, .int 2])) = .ok lowLevel.type :=
    Except.eq_ok_get rfl
  have hlisted := (listed_unless_unlisted (run_wellFormed [.add level] level_isBuilt)
    (listing_isDict _ _) (listing_enum _ _) rfl hbuild).1
  refine ⟨Validation.verdict_eq_accepts_iff.1 (by decide), fun v hv => ?_⟩
  rcases hlisted v hv with hmember | ⟨u, hu, hunlisted⟩
  · exact hmember
  · have hkind : (lowLevel.type.resolve (run [.add level])).map DataType.kind = .ok .integer := rfl
    rw [hu] at hkind
    rw [Except.ok.inj hkind] at hunlisted
    exact absurd hunlisted (by decide)

/-- The list of a type of null is not looked at. -/
theorem not_every_accepted_listed :
    ¬ ∀ (r : Registry) (bound : Bool) (name : String) (d : Mapping) (members : List Value)
        (t : DataType) (v : Value), r.WellFormed → Mapping.IsDict d →
        d.field? "enum" = some (.list members) → build bound name (.map d) = .ok t →
          t.validate r v = .ok () → ∃ m ∈ members, v.same m = true := by
  intro hclaim
  obtain ⟨m, hm, hsame⟩ := hclaim (run []) true "x" (listing "nil" [.text "a"]) [.text "a"] _ .null
    (run_wellFormed [] fun _ h => by cases h) (listing_isDict _ _) (listing_enum _ _)
    (Except.eq_ok_get rfl) (Validation.verdict_eq_accepts_iff.1 (by decide))
  obtain rfl := List.mem_singleton.1 hm
  cases hsame

end Registry

end Raml
