import Raml.Api.Build
import Raml.Proofs.Api.TypesInUse
import Raml.Proofs.DataType.Twins
import Raml.Proofs.Registry.InheritanceOutcome

/-! # Declared types and their uses

A definition is read line by line. Before types are declared nothing uses one;
from then on every type in use leads to a registered type. Applying inheritance
registers and removes nothing, so the types in use still lead there, and to
types that are settled and hold no reference without a target.
-/

namespace Raml

/-! ## Registering -/

namespace DataType

theorem traced_isBuilt (bound : Bool) (name : String) (definition : Value) :
    (traced bound name definition).Ensures IsBuilt :=
  fun _ h => .build h

theorem tracedNamed_isBuilt (bound : Bool) (name definition : Value) :
    (tracedNamed bound name definition).Ensures IsBuilt := by
  unfold tracedNamed
  split
  · exact traced_isBuilt bound _ definition
  · exact .fault _

end DataType

namespace Registry

open Edit (Ensures)

theorem register_wellFormed {t : DataType} (ht : t.IsBuilt) (key : Option String) :
    Ensures WellFormed (register t key) fun _ => WellFormed :=
  .traced fun _ _ => .get fun _ hs => .set fun _ _ => hs.add ht key

theorem declare_wellFormed (name definition : Value) :
    Ensures WellFormed (declare name definition) fun _ => WellFormed :=
  .traced fun t ht => register_wellFormed (DataType.tracedNamed_isBuilt true name definition t ht) _

theorem declareEach_wellFormed (types : Mapping) :
    Ensures WellFormed (declareEach types) fun _ => WellFormed :=
  .forEach fun _ _ => declare_wellFormed _ _

/-- Whether every entry is settled and holds no reference without a target. -/
def Closed (r : Registry) : Prop :=
  ∀ name t, r.get? name = some t → t.target? = none ∧ ∀ target, ¬ r.Dangles t target

theorem applyInheritance_closed :
    Ensures WellFormed applyInheritance fun _ s => s.WellFormed ∧ s.Closed := by
  intro r hr _ s hrun
  have happlies : r.Applies := congrArg Prod.snd hrun
  obtain rfl : r.applied = s := congrArg Prod.fst hrun
  refine ⟨hr.applied, fun name t hget => ?_⟩
  have hsettles := (get?_applied_iff hr happlies).1 hget
  refine ⟨hsettles.target?_eq_none hr, fun target hdangles => ?_⟩
  exact ((applies_iff hr).1 happlies).2 name t target hsettles
    ((dangles_congr (applied_refines hr)).1 hdangles)

end Registry

/-! ## Building an API -/

namespace Api

open Edit (Ensures)

/-- What holds until the first type is used. -/
structure Unused (a : Api) : Prop where
  wellFormed : a.types.WellFormed
  typesInUse : a.typesInUse = []

structure Leading (a : Api) : Prop where
  wellFormed : a.types.WellFormed
  leads : a.types.Leads a.typesInUse

/-- What holds once inheritance is applied. -/
structure Settled (a : Api) : Prop extends Leading a where
  closed : a.types.Closed

theorem whenPresent_ensures {P : Api → Prop} {v : Value} {f : Value → Edit Api Unit}
    (h : Ensures P (f v) fun _ => P) : Ensures P (whenPresent v f) fun _ => P := by
  unfold whenPresent
  split
  · exact .pure fun _ => id
  · exact h

theorem onTypes_unused {x : Edit Registry Unit}
    (h : Ensures Registry.WellFormed x fun _ => Registry.WellFormed) :
    Ensures Unused (onTypes x) fun _ => Unused := by
  refine .onPart fun a ha => ?_
  rintro s rfl u s' hrun
  exact ⟨h a.types ha.wellFormed u s' hrun, ha.typesInUse⟩

theorem addProtocol_unused (v : Value) : Ensures Unused (addProtocol v) fun _ => Unused := by
  refine .except fun p _ => .modify fun a ha => ?_
  split
  · exact ha
  · exact ⟨ha.wellFormed, ha.typesInUse⟩

theorem setBaseUri_unused (uri : Value) : Ensures Unused (setBaseUri uri) fun _ => Unused := by
  refine .keep (.modify fun a ha => ⟨ha.wellFormed, ha.typesInUse⟩) fun _ => .get fun a ha => ?_
  split
  · refine .except fun p _ => ?_
    split
    · exact .modify fun s hs => hs ▸ ⟨ha.wellFormed, ha.typesInUse⟩
    · exact .pure fun s hs => hs ▸ ha
  · exact .pure fun s hs => hs ▸ ha

theorem describe_unused (entries : Mapping) :
    Ensures Unused (describe entries) fun _ => Unused := by
  refine .keep (.modify fun a ha => ⟨ha.wellFormed, ha.typesInUse⟩) fun _ => ?_
  refine .except fun protocols _ => ?_
  refine .keep (.forEach fun v _ => addProtocol_unused v) fun _ => ?_
  refine .keep (whenPresent_ensures (setBaseUri_unused _)) fun _ => ?_
  exact .except fun documentation _ => .modify fun a ha => ⟨ha.wellFormed, ha.typesInUse⟩

theorem addSchema_unused (name schema : Value) :
    Ensures Unused (addSchema name schema) fun _ => Unused := by
  unfold addSchema
  split
  all_goals first
    | exact .fail _
    | refine .keep (.modify fun a ha => ⟨ha.wellFormed, ha.typesInUse⟩) fun _ => ?_
      refine .traced fun t ht => ?_
      have hbuilt := DataType.tracedNamed_isBuilt true name _ t ht
      exact onTypes_unused (Registry.register_wellFormed hbuilt _)

theorem addSchemaCollection_unused (v : Value) :
    Ensures Unused (addSchemaCollection v) fun _ => Unused := by
  unfold addSchemaCollection
  split
  · exact .forEach fun e _ => addSchema_unused e.1 e.2
  · exact .fail _

theorem addSchemas_unused (v : Value) : Ensures Unused (addSchemas v) fun _ => Unused := by
  unfold addSchemas
  split
  · exact addSchemaCollection_unused _
  · exact .forEach fun v _ => addSchemaCollection_unused v
  · exact .fail _

theorem Unused.leading {a : Api} (h : a.Unused) : a.Leading :=
  ⟨h.wellFormed, h.typesInUse ▸ Registry.leads_nil _⟩

theorem declareTypes_leading (entries : Mapping) :
    Ensures Unused (declareTypes entries) fun _ => Leading := by
  refine .keep (whenPresent_ensures (addSchemas_unused _)) fun _ => .except fun types _ => ?_
  refine .keep (onTypes_unused (Registry.declareEach_wellFormed types)) fun _ => .get fun a ha => ?_
  refine .traced fun base hbase => .modify fun s hs => ?_
  subst s
  have hleads := ha.leading.leads
  have hbase := Parameter.ofOptional_leads a.types true _ base hbase
  simp only [typesInUse, Declarations.typesInUse, Registry.leads_append] at hleads
  refine ⟨ha.wellFormed, ?_⟩
  simp only [typesInUse, Declarations.typesInUse, Registry.leads_append]
  exact ⟨⟨⟨hbase, hleads.1.1.2⟩, hleads.1.2⟩, hleads.2⟩

theorem keepDeclared_leading (entries : Mapping) :
    Ensures Leading (keepDeclared entries) fun _ => Leading :=
  .except fun _ _ => .except fun _ _ => .modify fun _ ha => ⟨ha.wellFormed, ha.leads⟩

theorem readSecuritySchemes_leads (r : Registry) (v : Value) :
    (readSecuritySchemes r v).Ensures fun schemes => r.Leads schemes.typesInUse :=
  fun schemes hschemes => SecuritySchemes.leads_iff.2
    (Traced.Ensures.records (fun _ _ e _ => SecurityScheme.ofDefinition_leads r e.1 e.2)
      schemes hschemes)

theorem declareUses_leading (entries : Mapping) :
    Ensures Leading (declareUses entries) fun _ => Leading := by
  refine .get fun a ha => .traced fun annotationTypes _ => .traced fun schemes hschemes => ?_
  refine .except fun securedBy hsecured => .except fun uses _ => .except fun annotations _ => ?_
  refine .modify fun s hs => ?_
  subst s
  have hleads := ha.leads
  have hschemes := readSecuritySchemes_leads a.types _ schemes hschemes
  have hsecured : a.types.Leads securedBy.typesInUse := by
    split at hsecured
    · obtain rfl := Except.ok.inj hsecured
      exact Registry.leads_nil _
    · exact SecuritySchemes.resolve_leads hschemes hsecured
  simp only [typesInUse, Declarations.typesInUse, Registry.leads_append] at hleads
  refine ⟨ha.wellFormed, ?_⟩
  simp only [typesInUse, Declarations.typesInUse, Registry.leads_append]
  exact ⟨⟨⟨hleads.1.1.1, hschemes⟩, hsecured⟩, hleads.2⟩

/-- No name is registered or removed, so types lead where they led before. -/
theorem applyInheritance_settled :
    Ensures Leading (onTypes Registry.applyInheritance) fun _ => Settled := by
  refine .onPart fun a ha => ?_
  rintro s rfl u types hrun
  obtain ⟨hwf, hclosed⟩ := Registry.applyInheritance_closed a.types ha.wellFormed u types hrun
  obtain rfl : a.types.applied = types := congrArg Prod.fst hrun
  exact ⟨⟨hwf, ha.leads.congr (Registry.applied_refines ha.wellFormed).has⟩, hclosed⟩

theorem addResources_settled (entries : Mapping) :
    Ensures Settled (addResources entries) fun _ => Settled := by
  refine .get fun a ha => ?_
  have hleads := ha.leads
  simp only [typesInUse, Registry.leads_append] at hleads
  refine .bind (.mapM (Q := fun e => a.types.Leads e.2.treeTypesInUse) fun e _ => ?_) ?_
  · refine .traced fun r hr => .pure fun s hs => ⟨?_, hs⟩
    exact Resource.ofDefinition_leads hleads.1 (.text e.1) e.2 r hr
  · refine fun resources => .modify fun s h => ?_
    obtain ⟨hall, rfl⟩ := h
    refine ⟨⟨ha.wellFormed, ?_⟩, ha.closed⟩
    simp only [typesInUse, Registry.leads_append, allResources, Resource.preorderAll_eq,
      List.flatMap_assoc, Registry.leads_flatMap]
    exact ⟨hleads.1, fun e he => Registry.leads_flatMap.1 (hall e he)⟩

theorem addEntries_settled (entries : Mapping) :
    Ensures Unused (addEntries entries) fun _ => Settled := by
  refine .keep (describe_unused entries) fun _ => ?_
  refine (declareTypes_leading entries).bind fun _ => ?_
  refine .keep (keepDeclared_leading entries) fun _ => ?_
  refine .keep (declareUses_leading entries) fun _ => ?_
  refine applyInheritance_settled.bind fun _ => ?_
  exact .keep (addResources_settled entries) fun _ => .get fun a ha => .last fun s hs _ => hs ▸ ha

theorem ofDefinition_settled (title definition : Value) :
    Ensures (fun _ => True) (ofDefinition title definition) fun a _ => a.Settled := by
  refine .except fun entries _ => ?_
  split
  · exact .bind (Q := fun _ _ => False) (.fail _) fun _ s hs => hs.elim
  · refine .except fun title _ => .bind (Q := fun _ r => r = []) (.set fun _ _ => rfl) fun _ => ?_
    rintro _ rfl a r hrun
    have hinitial : Unused { ofTitle title with types := [] } := ⟨.nil, rfl⟩
    obtain ⟨u, hu, rfl⟩ := Except.map_eq_ok_iff.1 (congrArg Prod.snd hrun)
    exact addEntries_settled entries _ hinitial u _ (Prod.ext rfl hu)

end Api

/-! ## Bodies -/

namespace Traced

variable {α β : Type} {x : Traced α} {f : α → Traced β}

theorem outcome_bind_ok {a : α} (h : x.outcome = .ok a) :
    (x >>= f).outcome = (f a).outcome := by
  rw [outcome_bind, h]
  rfl

theorem outcome_bind_error {e : Fault} (h : x.outcome = .error e) :
    (x >>= f).outcome = .error e := by
  rw [outcome_bind, h]
  rfl

end Traced

namespace Body

variable {d : Declarations} {name : String} {definition : Value} {t : DataType}

/-- Only the type itself is asked for a registered name, not what is nested in it. -/
theorem buildType_eq_ok (hclosed : d.types.Closed)
    (hbuild : DataType.build true name definition = .ok t) (hleads : d.types.Leads [t]) :
    (buildType d name definition).outcome = .ok t := by
  refine (Traced.outcome_bind_ok hbuild).trans ?_
  cases t with
  | reference c target bound =>
      obtain rfl := DataType.build_isBound hbuild c target bound .refl
      have hhas := hleads _ (List.mem_singleton_self _) target rfl
      obtain ⟨u, hget⟩ := Option.isSome_iff_exists.1 hhas
      have hresolve : (DataType.reference c target true).resolve d.types = .ok u :=
        Registry.resolve_eq_ok_iff.2
          ⟨[target], by simp, .step hget (.here (hclosed target u hget).1)⟩
      exact Traced.outcome_bind_ok hresolve
  | _ => rfl

theorem buildType_undeclared (hbuild : DataType.build true name definition = .ok t)
    {target : String} (htarget : t.target? = some target) (habsent : d.types.has target = false) :
    (buildType d name definition).outcome = .error (.unresolvedType target (some t.name)) := by
  cases t with
  | reference c other bound =>
      obtain rfl := Option.some.inj htarget
      obtain rfl := DataType.build_isBound hbuild c other bound .refl
      have hget := Option.isSome_eq_false_iff.1 habsent
      have hresolve : (DataType.reference c other true).resolve d.types =
          .error (.unresolvedType other (some c.name)) := by
        simp [DataType.resolve, DataType.followWithin, Option.isNone_iff_eq_none.1 hget]
      exact (Traced.outcome_bind_ok hbuild).trans (Traced.outcome_bind_error hresolve)
  | _ => cases htarget

/-- A body whose type is a reference to a name that is not registered is refused. -/
theorem ofDefinition_undeclared (htyped : isTyped definition = .ok true)
    (hbuild : DataType.build true name definition = .ok t) {target : String}
    (htarget : t.target? = some target) (habsent : d.types.has target = false)
    (mediaType : Value) :
    (ofDefinition d name mediaType definition).outcome =
      .error (.unresolvedType target (some t.name)) := by
  have htype : (some <$> buildType d name definition).outcome =
      .error (.unresolvedType target (some t.name)) := by
    rw [← bind_pure_comp]
    exact Traced.outcome_bind_error (buildType_undeclared hbuild htarget habsent)
  unfold ofDefinition
  split
  · cases htyped
  · refine (Traced.outcome_bind_ok htyped).trans ?_
    exact Traced.outcome_bind_error htype

end Body

/-! ## Uses of declared types -/

namespace Api

/-- Whether a name is registered for a type that holds no reference without a target. -/
def Resolves (a : Api) (name : String) : Prop :=
  ∃ t, a.types.get? name = some t ∧ t.target? = none ∧ ∀ target, ¬ a.types.Dangles t target

theorem Settled.resolves {a : Api} (h : a.Settled) {t : DataType} (ht : t ∈ a.typesInUse)
    {target : String} (htarget : t.target? = some target) : a.Resolves target := by
  have hhas := h.leads t ht target htarget
  obtain ⟨u, hget⟩ := Option.isSome_iff_exists.1 hhas
  exact ⟨u, hget, h.closed target u hget⟩

/-- In an API that is accepted, each type in use that is a reference, and each reference inside a
registered type, refers to a registered type. A body is refused for a name that is not registered
exactly if its type is itself a reference to it. -/
theorem uses_declared_types (title definition : Value) (registry : Registry) :
    (∀ a, (ofDefinition title definition registry).outcome = .ok a →
      a.types.Closed ∧
        ∀ t ∈ a.typesInUse, ∀ target, t.target? = some target → a.Resolves target) ∧
    ∀ (d : Declarations) (name : String) (body : Value) (t : DataType), d.types.Closed →
      Body.isTyped body = .ok true → DataType.build true name body = .ok t →
        (d.types.Leads [t] → (Body.buildType d name body).outcome = .ok t) ∧
        ∀ target, t.target? = some target → d.types.has target = false → ∀ mediaType,
          (Body.ofDefinition d name mediaType body).outcome =
            .error (.unresolvedType target (some t.name)) := by
  refine ⟨fun a ha => ?_, fun d name body t hclosed htyped hbuild => ⟨?_, ?_⟩⟩
  · have hsettled : a.Settled :=
      ofDefinition_settled title definition registry trivial a _ (Prod.ext rfl ha)
    exact ⟨hsettled.closed, fun t ht target htarget => hsettled.resolves ht htarget⟩
  · exact Body.buildType_eq_ok hclosed hbuild
  · intro target htarget habsent mediaType
    exact Body.ofDefinition_undeclared htyped hbuild htarget habsent mediaType

def withBody (type : String) : Value :=
  .map
    [(.text "types", .map
      [(.text "Order", .map (Registry.withProperty "object" "total" "number"))]),
    (.text "/orders", .map [(.text "post", .map
      [(.text "body", .map [(.text "application/json", .text type)])])])]

/-- A body of the declared type is accepted, and refused where no type is declared. -/
theorem uses_declared_types_order :
    ∃ a t, (ofDefinition (.text "Shop") (withBody "Order") []).outcome = .ok a ∧
      a.types.Closed ∧ a.Resolves "Order" ∧
      (Body.buildType a.toDeclarations "POST body" (.text "Order")).outcome = .ok t ∧
      (Body.ofDefinition .empty "POST body" (.text "text/plain") (.text "Order")).outcome =
        .error (.unresolvedType "Order" (some t.name)) := by
  have hrun : (ofDefinition (.text "Shop") (withBody "Order") []).outcome.toOption.map
      (fun a => a.typesInUse.any fun t => t.target? == some "Order") = some true := by
    decide
  obtain ⟨a, ha, hany⟩ := Option.map_eq_some_iff.1 hrun
  obtain ⟨u, hu, htarget⟩ := List.any_eq_true.1 hany
  have haccepted := Except.eq_ok_of_toOption ha
  have ⟨huses, hbody⟩ := uses_declared_types (.text "Shop") (withBody "Order") []
  obtain ⟨hclosed, hresolves⟩ := huses a haccepted
  have horder := hresolves u hu "Order" (eq_of_beq htarget)
  have hbuilt : (DataType.build true "POST body" (.text "Order")).toOption.map
      DataType.target? = some (some "Order") := by
    decide
  obtain ⟨t, ht, htarget⟩ := Option.map_eq_some_iff.1 hbuilt
  have hbuild := Except.eq_ok_of_toOption ht
  have hleads : a.types.Leads [t] := by
    intro t' ht' target htarget'
    obtain rfl := List.mem_singleton.1 ht'
    obtain rfl := Option.some.inj (htarget.symm.trans htarget')
    obtain ⟨u, hget, -⟩ := horder
    simp [Table.has, hget]
  have hempty : Declarations.empty.types.Closed := by
    intro name t hget
    cases hget
  refine ⟨a, t, haccepted, hclosed, horder, ?_, ?_⟩
  · exact (hbody a.toDeclarations "POST body" (.text "Order") t hclosed rfl hbuild).1 hleads
  · exact (hbody .empty "POST body" (.text "Order") t hempty rfl hbuild).2 "Order" htarget rfl _

def annotationValueTypes (a : Api) : List DataType :=
  a.annotationTypes.flatMap fun e => e.2.valueType.toList

/-- An API is accepted although a reference nested in the type of a body refers to a name that is
not registered. -/
theorem not_every_use_declared :
    ¬ ∀ (title definition : Value) (registry : Registry) (a : Api),
      (ofDefinition title definition registry).outcome = .ok a →
        ∀ t ∈ a.typesInUse ++ a.annotationValueTypes, ∀ u target,
          Relation.ReflTransGen DataType.Nests t u → u.target? = some target →
            a.types.has target = true := by
  intro hclaim
  have hrun : (ofDefinition (.text "Shop") (withBody "Missing[]") []).outcome.toOption.map
      (fun a => !a.types.has "Missing" &&
        a.typesInUse.any fun t => t.descendants.any fun u => u.target? == some "Missing") =
      some true := by
    decide +kernel
  obtain ⟨a, ha, hany⟩ := Option.map_eq_some_iff.1 hrun
  obtain ⟨habsent, hany⟩ := Bool.and_eq_true_iff.1 hany
  obtain ⟨t, ht, hany⟩ := List.any_eq_true.1 hany
  obtain ⟨u, hu, htarget⟩ := List.any_eq_true.1 hany
  have hnested := (DataType.mem_descendants_iff.1 hu).to_reflTransGen
  have hhas := hclaim _ _ _ a (Except.eq_ok_of_toOption ha) t
    (List.mem_append_left _ ht) u "Missing" hnested (eq_of_beq htarget)
  rw [hhas] at habsent
  cases habsent

end Api

end Raml
