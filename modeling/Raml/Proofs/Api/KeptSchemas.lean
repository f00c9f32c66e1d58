import Raml.Proofs.Api.Protocols

/-! # Kept schemas

A schema of the older way to declare types is kept as it stands, and a type is built from it and
registered under its name. It is kept first: where no type can be built, the schema stays behind
under a name that is not registered, and so does an inline schema whose name is empty, since its
type goes by another name. These schemas are stranded, and they alone bring what is kept and what is
registered out of step.
-/

namespace Raml

/-! ## Runs whose success is foreseen -/

namespace Edit

variable {σ α : Type} {f : α → Edit σ Unit} {p : α → Bool}

/-- The elements of a list up to the first that fails a test, that one included. -/
def upTo (p : α → Bool) : List α → List α
  | [] => []
  | a :: rest => a :: if p a then upTo p rest else []

/-- If success does not depend on the state, a run does the edits up to the first that fails. -/
theorem forEach_result (h : ∀ a s, (f a s).result.2 = .ok () ↔ p a = true) (xs : List α) (s : σ) :
    (forEach f xs s).result.1 = (upTo p xs).foldl (fun s a => (f a s).result.1) s ∧
      ((forEach f xs s).result.2 = .ok () ↔ xs.all p = true) := by
  induction xs generalizing s with
  | nil => simp [forEach, upTo]
  | cons a rest ih =>
      have hsucceeds := h a s
      rw [forEach]
      rcases hr : (f a s).result with ⟨s', e | u⟩
      · rw [hr] at hsucceeds
        have hfails : p a = false := by simpa using hsucceeds
        rw [result_bind_error hr]
        simp [upTo, hfails, hr]
      · rw [hr] at hsucceeds
        have hpasses : p a = true := hsucceeds.1 rfl
        rw [result_bind_ok hr]
        simpa [upTo, hpasses, hr] using ih s'

end Edit

namespace Api

open Registry (keyFor)

/-! ## Stores -/

def Keeps (a : Api) (name : Value) : Prop := name ∈ Table.keys a.schemaCollections

def Registers (a : Api) (name : Value) : Prop := ∃ key, name = .text key ∧ a.types.has key = true

/-- Whether every name that a schema is kept under is that of a registered type. -/
def InStep (a : Api) : Prop := ∀ name, a.Keeps name → a.Registers name

@[simp] theorem registers_text_iff {a : Api} {key : String} :
    a.Registers (.text key) ↔ a.types.has key = true :=
  ⟨fun ⟨_, hname, hhas⟩ => Value.text.inj hname ▸ hhas, fun hhas => ⟨key, rfl, hhas⟩⟩

/-! ## One schema -/

def isSchema : Value → Bool
  | .text _ | .map _ => true
  | _ => false

/-- The name that the type of a schema is registered under, if it is one and its type can be
built. -/
def registeredAs? (e : Value × Value) : Option String :=
  if isSchema e.2 then
    (DataType.buildNamed true e.1 e.2).toOption.map fun t => keyFor t e.1.text?
  else none

/-- Whether a schema is kept and no type is registered under its name for it. -/
def Strands (e : Value × Value) : Prop :=
  isSchema e.2 = true ∧ ∀ key, e.1 = .text key → registeredAs? e ≠ some key

def afterSchema (a : Api) (e : Value × Value) : Api := (addSchema e.1 e.2 a).result.1

theorem registeredAs?_of_ok {e : Value × Value} {t : DataType} (hshape : isSchema e.2 = true)
    (hbuild : DataType.buildNamed true e.1 e.2 = .ok t) :
    registeredAs? e = some (keyFor t e.1.text?) := by
  rw [registeredAs?, if_pos hshape, hbuild]
  rfl

theorem registeredAs?_of_error {e : Value × Value} {f : Fault}
    (hbuild : DataType.buildNamed true e.1 e.2 = .error f) : registeredAs? e = none := by
  rw [registeredAs?, hbuild]
  exact ite_self none

theorem registeredAs?_of_shape {e : Value × Value} (hshape : isSchema e.2 = false) :
    registeredAs? e = none := by
  rw [registeredAs?, hshape]
  rfl

/-- What adding a schema does: a value of another shape is refused, a schema is kept in any case,
and the type that can be built from it is registered. -/
theorem addSchema_cases (name schema : Value) (a : Api) :
    isSchema schema = false ∧
        (addSchema name schema a).result = (a, .error (.schemaDefinition name.shown)) ∨
      isSchema schema = true ∧
        ((∃ f, DataType.buildNamed true name schema = .error f ∧
            (addSchema name schema a).result =
              ({ a with schemaCollections := a.schemaCollections.insert name schema }, .error f)) ∨
          ∃ t, DataType.buildNamed true name schema = .ok t ∧
            (addSchema name schema a).result =
              ({ a with
                  schemaCollections := a.schemaCollections.insert name schema
                  types := a.types.add t name.text? }, .ok ())) := by
  -- both shapes of a schema run the same edit
  have hkept (b : Api)
      (hrun : (addSchema name schema a).result =
        (((DataType.tracedNamed true name schema : Edit Api DataType) >>= fun t =>
          onTypes (Registry.register t name.text?)) b).result) :
      (∃ f, DataType.buildNamed true name schema = .error f ∧
          (addSchema name schema a).result = (b, .error f)) ∨
        ∃ t, DataType.buildNamed true name schema = .ok t ∧
          (addSchema name schema a).result =
            ({ b with types := b.types.add t name.text? }, .ok ()) := by
    have hbuild := Edit.result_traced (DataType.tracedNamed true name schema) b
    rw [DataType.outcome_tracedNamed] at hbuild
    rw [hrun]
    cases ht : DataType.buildNamed true name schema with
    | error f =>
        rw [ht] at hbuild
        exact .inl ⟨f, rfl, Edit.result_bind_error hbuild _⟩
    | ok t =>
        rw [ht] at hbuild
        exact .inr ⟨t, rfl, Edit.result_bind_ok hbuild _⟩
  cases schema with
  | text s => exact .inr ⟨rfl, hkept _ rfl⟩
  | map entries => exact .inr ⟨rfl, hkept _ rfl⟩
  | _ => exact .inl ⟨rfl, rfl⟩

/-- A schema that is not added leaves the types as they are, and one of another shape leaves
everything as it is. -/
theorem addSchema_error {name schema : Value} {a : Api} {f : Fault}
    (h : (addSchema name schema a).result.2 = .error f) :
    (addSchema name schema a).result.1 =
      if isSchema schema then
        { a with schemaCollections := a.schemaCollections.insert name schema }
      else a := by
  rcases addSchema_cases name schema a with
    ⟨hshape, hrun⟩ | ⟨hshape, ⟨g, -, hrun⟩ | ⟨t, -, hrun⟩⟩
  · rw [hrun, if_neg (by simp [hshape])]
  · rw [hrun, if_pos hshape]
  · rw [hrun] at h
    cases h

theorem addSchema_eq_ok_iff (name schema : Value) (a : Api) :
    (addSchema name schema a).result.2 = .ok () ↔
      (registeredAs? (name, schema)).isSome = true := by
  rcases addSchema_cases name schema a with
    ⟨hshape, hrun⟩ | ⟨hshape, ⟨f, hbuild, hrun⟩ | ⟨t, hbuild, hrun⟩⟩
  · simp [hrun, registeredAs?_of_shape (e := (name, schema)) hshape]
  · simp [hrun, registeredAs?_of_error (e := (name, schema)) hbuild]
  · simp [hrun, registeredAs?_of_ok (e := (name, schema)) hshape hbuild]

theorem has_add (r : Registry) (t : DataType) (key : Option String) (name : String) :
    (r.add t key).has name = true ↔ keyFor t key = name ∨ r.has name = true := by
  rw [Table.has, Registry.get?_add]
  split
  · simp [*]
  · simp [*, Table.has]

/-- An attempt registers the name of the schema's type, if there is one, and no other. -/
theorem has_afterSchema {a : Api} {e : Value × Value} {key : String} :
    (a.afterSchema e).types.has key = true ↔
      registeredAs? e = some key ∨ a.types.has key = true := by
  rw [afterSchema]
  rcases addSchema_cases e.1 e.2 a with
    ⟨hshape, hrun⟩ | ⟨hshape, ⟨f, hbuild, hrun⟩ | ⟨t, hbuild, hrun⟩⟩
  · simp [hrun, registeredAs?_of_shape hshape]
  · simp [hrun, registeredAs?_of_error hbuild]
  · simp [hrun, registeredAs?_of_ok hshape hbuild, has_add]

/-- An attempt keeps a schema, whether or not its type can be built, and nothing else. -/
theorem schemaCollections_afterSchema (a : Api) (e : Value × Value) :
    (a.afterSchema e).schemaCollections =
      if isSchema e.2 then a.schemaCollections.insert e.1 e.2 else a.schemaCollections := by
  rw [afterSchema]
  rcases addSchema_cases e.1 e.2 a with
    ⟨hshape, hrun⟩ | ⟨hshape, ⟨f, hbuild, hrun⟩ | ⟨t, hbuild, hrun⟩⟩ <;> simp [hrun, hshape]

/-- A schema is stranded if its type cannot be built, or has another name than the empty one that it
is declared under. -/
theorem strands_iff {e : Value × Value} :
    Strands e ↔ isSchema e.2 = true ∧
      ((∃ f, DataType.buildNamed true e.1 e.2 = .error f) ∨
        ∃ t, e.1 = .text "" ∧ DataType.buildNamed true e.1 e.2 = .ok t ∧ t.name ≠ "") := by
  refine and_congr_right fun hshape => ?_
  cases hbuild : DataType.buildNamed true e.1 e.2 with
  | error f => simp [registeredAs?_of_error hbuild]
  | ok t =>
      obtain ⟨key, hkey⟩ : ∃ key, e.1 = .text key := by
        cases hname : e.1 with
        | text key => exact ⟨key, rfl⟩
        | _ =>
            rw [hname] at hbuild
            cases hbuild
      rw [registeredAs?_of_ok hshape hbuild, hkey]
      by_cases hempty : key = "" <;> simp [Value.text?, keyFor, hempty]

/-! ## Sequences of schemas -/

variable {a : Api} {es : List (Value × Value)}

theorem has_foldl_afterSchema {key : String} :
    (es.foldl afterSchema a).types.has key = true ↔
      (∃ e ∈ es, registeredAs? e = some key) ∨ a.types.has key = true := by
  induction es generalizing a with
  | nil => simp
  | cons e rest ih =>
      rw [List.foldl_cons, ih, has_afterSchema]
      simp [or_assoc, or_left_comm]

theorem keeps_foldl_afterSchema {name : Value} (h : (es.foldl afterSchema a).Keeps name) :
    a.Keeps name ∨ ∃ e ∈ es, e.1 = name ∧ isSchema e.2 = true := by
  induction es generalizing a with
  | nil => exact .inl h
  | cons e rest ih =>
      rcases ih h with hkeeps | ⟨e', he', hname, hshape⟩
      · rw [Keeps, schemaCollections_afterSchema] at hkeeps
        split at hkeeps
        · next hshape =>
            refine (Table.mem_keys_insert hkeeps).imp id fun hname => ?_
            exact ⟨e, List.mem_cons_self, hname.symm, hshape⟩
        · exact .inl hkeeps
      · exact .inr ⟨e', List.mem_cons_of_mem e he', hname, hshape⟩

theorem Keeps.foldl_afterSchema {name : Value} (h : a.Keeps name) :
    (es.foldl afterSchema a).Keeps name := by
  induction es generalizing a with
  | nil => exact h
  | cons e rest ih =>
      refine ih ?_
      rw [Keeps, schemaCollections_afterSchema]
      split
      · rw [Table.keys_insert]
        split
        · exact h
        · exact List.mem_append_left _ h
      · exact h

theorem exists_keeps_of_mem {e : Value × Value} (he : e ∈ es) (hshape : isSchema e.2 = true) :
    ∃ name, (es.foldl afterSchema a).Keeps name ∧ (name = e.1 ∨ (name == e.1) = true) := by
  obtain ⟨before, after, rfl⟩ := List.append_of_mem he
  rw [List.foldl_append, List.foldl_cons]
  generalize before.foldl afterSchema a = b
  obtain ⟨name, hkeeps, hname⟩ :
      ∃ name, (b.afterSchema e).Keeps name ∧ (name = e.1 ∨ (name == e.1) = true) := by
    simp only [Keeps, schemaCollections_afterSchema, hshape, if_true, Table.keys_insert]
    split
    · next hpresent =>
        rw [Table.has_eq_any, List.any_eq_true] at hpresent
        obtain ⟨name, hmem, hname⟩ := hpresent
        exact ⟨name, hmem, .inr hname⟩
    · exact ⟨e.1, List.mem_append_right _ (List.mem_singleton_self _), .inl rfl⟩
  exact ⟨name, hkeeps.foldl_afterSchema, hname⟩

/-- A sequence of schemas leaves the stores in step exactly if every name that was out of step and
every stranded one is registered in the end. -/
theorem inStep_foldl_iff :
    (es.foldl afterSchema a).InStep ↔
      (∀ name, a.Keeps name → ¬ a.Registers name → (es.foldl afterSchema a).Registers name) ∧
        ∀ e ∈ es, Strands e → (es.foldl afterSchema a).Registers e.1 := by
  constructor
  · intro hstep
    refine ⟨fun name hkeeps _ => hstep name hkeeps.foldl_afterSchema, fun e he hstrands => ?_⟩
    obtain ⟨name, hkeeps, hname⟩ := exists_keeps_of_mem (a := a) he hstrands.1
    rcases hname with rfl | hname
    · exact hstep _ hkeeps
    · obtain ⟨key, rfl, hhas⟩ := hstep name hkeeps
      exact ⟨key, (Value.text_beq key e.1).1 hname, hhas⟩
  · rintro ⟨hbefore, hstranded⟩ name hkeeps
    rcases keeps_foldl_afterSchema hkeeps with hkeeps | ⟨e, he, rfl, hshape⟩
    · by_cases hregisters : a.Registers name
      · obtain ⟨key, rfl, hhas⟩ := hregisters
        exact ⟨key, rfl, has_foldl_afterSchema.2 (.inr hhas)⟩
      · exact hbefore name hkeeps hregisters
    · by_cases hstrands : Strands e
      · exact hstranded e he hstrands
      · have hregistered := not_forall.1 fun hnone => hstrands ⟨hshape, hnone⟩
        obtain ⟨key, hregistered⟩ := hregistered
        obtain ⟨hname, hkey⟩ := Classical.not_imp.1 hregistered
        exact ⟨key, hname, has_foldl_afterSchema.2 (.inl ⟨e, he, not_not.1 hkey⟩)⟩

/-! ## Sequences of calls -/

def isSound : Value → Bool
  | .map entries => entries.all fun e => (registeredAs? e).isSome
  | _ => false

/-- The schemas of a collection that are tried, up to the first that cannot be added. -/
def triedOf : Value → List (Value × Value)
  | .map entries => Edit.upTo (fun e => (registeredAs? e).isSome) entries
  | _ => []

def tried : Value → List (Value × Value)
  | .list collections => (Edit.upTo isSound collections).flatMap triedOf
  | v => triedOf v

/-- The API after some calls that add schemas, each with its collections. A call that fails leaves
what it has done by then. -/
def afterSchemas (a : Api) (calls : List Value) : Api :=
  calls.foldl (fun a v => (addSchemas v a).result.1) a

theorem addSchemaCollection_result (v : Value) (a : Api) :
    (addSchemaCollection v a).result.1 = (triedOf v).foldl afterSchema a ∧
      ((addSchemaCollection v a).result.2 = .ok () ↔ isSound v = true) := by
  cases v with
  | map entries => exact Edit.forEach_result (fun e s => addSchema_eq_ok_iff e.1 e.2 s) entries a
  | _ => exact ⟨rfl, by simp [addSchemaCollection, isSound]⟩

theorem addSchemas_state (v : Value) (a : Api) :
    (addSchemas v a).result.1 = (tried v).foldl afterSchema a := by
  cases v with
  | map entries => exact (addSchemaCollection_result (.map entries) a).1
  | list collections =>
      have hrun := Edit.forEach_result (fun v s => (addSchemaCollection_result v s).2) collections a
      refine hrun.1.trans ?_
      rw [tried, List.foldl_flatMap]
      congr 1
      funext b v
      exact (addSchemaCollection_result v b).1
  | _ => rfl

theorem afterSchemas_eq (a : Api) (calls : List Value) :
    a.afterSchemas calls = (calls.flatMap tried).foldl afterSchema a := by
  rw [List.foldl_flatMap, afterSchemas]
  congr 1
  funext b v
  exact addSchemas_state v b

/-! ## Built APIs -/

open Edit (Ensures)

/-- Whether the names that schemas are kept under are registered, the empty one apart, in a registry
of built types. -/
structure IsInStepUnlessEmpty (a : Api) : Prop where
  wellFormed : a.types.WellFormed
  registered : ∀ name, a.Keeps name → a.Registers name ∨ name = .text ""

theorem IsInStepUnlessEmpty.of_eq {a b : Api} (h : a.IsInStepUnlessEmpty)
    (htypes : b.types = a.types) (hschemas : b.schemaCollections = a.schemaCollections) :
    b.IsInStepUnlessEmpty := by
  obtain ⟨hwf, hregistered⟩ := h
  refine ⟨htypes ▸ hwf, ?_⟩
  simp only [Keeps, Registers, htypes, hschemas]
  exact hregistered

/-- An edit of the types that loses no name. -/
theorem onTypes_inStep {x : Edit Registry Unit}
    (h : ∀ r, r.WellFormed → Ensures (· = r) x fun _ s =>
      s.WellFormed ∧ ∀ key, r.has key = true → s.has key = true) :
    Ensures IsInStepUnlessEmpty (onTypes x) fun _ => IsInStepUnlessEmpty := by
  refine .onPart fun a ha r hr u s hrun => ?_
  obtain ⟨hwf, hmono⟩ := h a.types ha.wellFormed r hr u s hrun
  refine ⟨hwf, fun name hkeeps => (ha.registered name hkeeps).imp_left ?_⟩
  exact fun ⟨key, hname, hhas⟩ => ⟨key, hname, hmono key hhas⟩

theorem register_keepsNames {t : DataType} (ht : t.IsBuilt) (key : Option String) (r : Registry)
    (hr : r.WellFormed) :
    Ensures (· = r) (Registry.register t key) fun _ s =>
      s.WellFormed ∧ ∀ name, r.has name = true → s.has name = true := by
  refine .traced fun _ _ => .get fun s hs => .set fun _ _ => ?_
  subst s
  exact ⟨hr.add ht key, fun name hhas => (has_add r t key name).2 (.inr hhas)⟩

theorem declareEach_keepsNames (types : Mapping) (r : Registry) (hr : r.WellFormed) :
    Ensures (· = r) (Registry.declareEach types) fun _ s =>
      s.WellFormed ∧ ∀ name, r.has name = true → s.has name = true := by
  have hstep (e : Value × Value) :
      Ensures (fun s : Registry => s.WellFormed ∧ ∀ name, r.has name = true → s.has name = true)
        (Registry.declare e.1 e.2) fun _ s =>
          s.WellFormed ∧ ∀ name, r.has name = true → s.has name = true := by
    refine .traced fun t ht => ?_
    have hbuilt := DataType.tracedNamed_isBuilt true e.1 e.2 t ht
    intro s hs u s' hrun
    have hregister := register_keepsNames hbuilt _ s hs.1 s rfl u s' hrun
    exact ⟨hregister.1, fun name hhas => hregister.2 name (hs.2 name hhas)⟩
  rintro _ rfl u s hrun
  exact Edit.Ensures.forEach (fun e _ => hstep e) _ ⟨hr, fun _ => id⟩ u s hrun

theorem applyInheritance_keepsNames (r : Registry) (hr : r.WellFormed) :
    Ensures (· = r) Registry.applyInheritance fun _ s =>
      s.WellFormed ∧ ∀ name, r.has name = true → s.has name = true := by
  rintro _ rfl u s hrun
  obtain rfl := congrArg Prod.fst hrun
  exact ⟨hr.applied, fun name hhas => ((Registry.applied_refines hr).has name).trans hhas⟩

theorem addSchema_inStep (name schema : Value) :
    Ensures IsInStepUnlessEmpty (addSchema name schema) fun _ => IsInStepUnlessEmpty := by
  intro a ha u b hrun
  rcases addSchema_cases name schema a with
    ⟨-, h⟩ | ⟨-, ⟨f, -, h⟩ | ⟨t, hbuild, h⟩⟩
  · cases h.symm.trans hrun
  · cases h.symm.trans hrun
  · obtain rfl := (Prod.mk.inj (h.symm.trans hrun)).1
    have hbuilt := DataType.tracedNamed_isBuilt true name schema t
      ((DataType.outcome_tracedNamed true name schema).trans hbuild)
    refine ⟨ha.wellFormed.add hbuilt _, fun other hkeeps => ?_⟩
    rcases Table.mem_keys_insert hkeeps with hkeeps | rfl
    · refine (ha.registered other hkeeps).imp_left ?_
      exact fun ⟨key, hkey, hhas⟩ => ⟨key, hkey, (has_add _ _ _ _).2 (.inr hhas)⟩
    · cases other with
      | text key =>
          by_cases hempty : key = ""
          · exact .inr (congrArg Value.text hempty)
          · exact .inl
              ⟨key, rfl, (has_add _ _ _ _).2 (.inl (by simp [Value.text?, keyFor, hempty]))⟩
      | _ => cases hbuild

theorem addSchemaCollection_inStep (v : Value) :
    Ensures IsInStepUnlessEmpty (addSchemaCollection v) fun _ => IsInStepUnlessEmpty := by
  unfold addSchemaCollection
  split
  · exact .forEach fun e _ => addSchema_inStep e.1 e.2
  · exact .fail _

theorem addSchemas_inStep (v : Value) :
    Ensures IsInStepUnlessEmpty (addSchemas v) fun _ => IsInStepUnlessEmpty := by
  unfold addSchemas
  split
  · exact addSchemaCollection_inStep _
  · exact .forEach fun v _ => addSchemaCollection_inStep v
  · exact .fail _

theorem addProtocol_inStep (v : Value) :
    Ensures IsInStepUnlessEmpty (addProtocol v) fun _ => IsInStepUnlessEmpty := by
  intro a ha u b hrun
  obtain rfl := congrArg Prod.fst hrun
  rcases addProtocol_state v a with hstate | ⟨p, -, hstate⟩
  all_goals
    rw [show (addProtocol v a).result.1 = _ from hstate]
    exact ha.of_eq rfl rfl

theorem setBaseUri_inStep (uri : Value) :
    Ensures IsInStepUnlessEmpty (setBaseUri uri) fun _ => IsInStepUnlessEmpty := by
  intro a ha u b hrun
  obtain rfl := congrArg Prod.fst hrun
  rcases setBaseUri_state uri a with hstate | ⟨-, p, hstate⟩
  all_goals
    rw [show (setBaseUri uri a).result.1 = _ from hstate]
    exact ha.of_eq rfl rfl

theorem describe_inStep (entries : Mapping) :
    Ensures IsInStepUnlessEmpty (describe entries) fun _ => IsInStepUnlessEmpty := by
  refine .keep (.modify fun a ha => ha.of_eq rfl rfl) fun _ => .except fun protocols _ => ?_
  refine .keep (.forEach fun v _ => addProtocol_inStep v) fun _ => ?_
  refine .keep (whenPresent_ensures (setBaseUri_inStep _)) fun _ => ?_
  exact .except fun documentation _ => .modify fun a ha => ha.of_eq rfl rfl

theorem declareTypes_inStep (entries : Mapping) :
    Ensures IsInStepUnlessEmpty (declareTypes entries) fun _ => IsInStepUnlessEmpty := by
  refine .keep (whenPresent_ensures (addSchemas_inStep _)) fun _ => .except fun types _ => ?_
  refine .keep (onTypes_inStep (declareEach_keepsNames types)) fun _ => .get fun a ha => ?_
  exact .traced fun base _ => .modify fun s hs => (hs ▸ ha).of_eq rfl rfl

theorem declareUses_inStep (entries : Mapping) :
    Ensures IsInStepUnlessEmpty (declareUses entries) fun _ => IsInStepUnlessEmpty := by
  refine .get fun a ha => .traced fun annotationTypes _ => .traced fun schemes _ => ?_
  refine .except fun securedBy _ => .except fun uses _ => .except fun annotations _ => ?_
  exact .modify fun s hs => (hs ▸ ha).of_eq rfl rfl

theorem addResources_inStep (entries : Mapping) :
    Ensures IsInStepUnlessEmpty (addResources entries) fun _ => IsInStepUnlessEmpty := by
  refine .get fun a ha => .bind (.mapM (Q := fun _ => True) fun e _ => ?_) fun resources => ?_
  · exact .traced fun r _ => .pure fun s hs => ⟨trivial, hs⟩
  · exact .modify fun s hs => (hs.2 ▸ ha).of_eq rfl rfl

theorem addEntries_inStep (entries : Mapping) :
    Ensures IsInStepUnlessEmpty (addEntries entries) fun _ => IsInStepUnlessEmpty := by
  refine .keep (describe_inStep entries) fun _ => .keep (declareTypes_inStep entries) fun _ => ?_
  refine .keep (.except fun _ _ => .except fun _ _ => .modify fun _ ha => ha.of_eq rfl rfl)
    fun _ => ?_
  refine .keep (declareUses_inStep entries) fun _ => ?_
  refine .keep (onTypes_inStep applyInheritance_keepsNames) fun _ => ?_
  refine .keep (addResources_inStep entries) fun _ => ?_
  exact .get fun a ha => .last fun s hs _ => hs ▸ ha

theorem ofDefinition_inStep {title definition : Value} {registry : Registry} {a : Api}
    (h : (ofDefinition title definition registry).outcome = .ok a) : a.IsInStepUnlessEmpty := by
  obtain ⟨entries, text, -, -, -, hrun⟩ := ofDefinition_eq_ok h
  have hinitial : IsInStepUnlessEmpty { ofTitle text with types := [] } := ⟨.nil, nofun⟩
  exact addEntries_inStep entries _ hinitial () a hrun

/-! ## Schemas and types in step -/

/-- However schemas are added to a built API, what is kept and what is registered stay in step
exactly if the names of the stranded schemas are registered in the end, that is before or by another
schema. The stranded ones are those whose type cannot be built, and inline schemas without a name.
An attempt that fails leaves the types as they are, but keeps what has the shape of a schema. -/
theorem inStep_unless_stranded {title definition : Value} {registry : Registry} {a : Api}
    (h : (ofDefinition title definition registry).outcome = .ok a) (calls : List Value) :
    ((a.afterSchemas calls).InStep ↔
      (a.Keeps (.text "") → (a.afterSchemas calls).Registers (.text "")) ∧
        ∀ e ∈ calls.flatMap tried, Strands e → (a.afterSchemas calls).Registers e.1) ∧
    (∀ key, (a.afterSchemas calls).Registers (.text key) ↔
      (∃ e ∈ calls.flatMap tried, registeredAs? e = some key) ∨ a.Registers (.text key)) ∧
    (∀ e, Strands e ↔ isSchema e.2 = true ∧
      ((∃ f, DataType.buildNamed true e.1 e.2 = .error f) ∨
        ∃ t, e.1 = .text "" ∧ DataType.buildNamed true e.1 e.2 = .ok t ∧ t.name ≠ "")) ∧
    ∀ (b : Api) (name schema : Value) (f : Fault), (addSchema name schema b).result.2 = .error f →
      (addSchema name schema b).result.1 =
        if isSchema schema then
          { b with schemaCollections := b.schemaCollections.insert name schema }
        else b := by
  have hbuilt := (ofDefinition_inStep h).registered
  rw [afterSchemas_eq]
  refine ⟨?_, fun key => ?_, fun _ => strands_iff, fun _ _ _ _ => addSchema_error⟩
  · rw [inStep_foldl_iff]
    refine and_congr_left fun _ => ⟨fun hbefore hkeeps => ?_, fun hempty name hkeeps hlost => ?_⟩
    · by_cases hregisters : a.Registers (.text "")
      · rw [registers_text_iff] at hregisters ⊢
        exact has_foldl_afterSchema.2 (.inr hregisters)
      · exact hbefore _ hkeeps hregisters
    · obtain rfl := (hbuilt name hkeeps).resolve_left hlost
      exact hempty hkeeps
  · rw [registers_text_iff, registers_text_iff]
    exact has_foldl_afterSchema

def songSchema : Value :=
  .map [(.text "schemas", .map [(.text "song", .text "\x7b\x22type\x22: \x22object\x22\x7d")])]

/-- A call that adds a schema for albums, and one that fails at another schema for songs. -/
def schemaCalls : List Value :=
  [.map [(.text "album", .text "song[]")],
    .list [.map [(.text "song", .text "\x7bbad"), (.text "artist", .text "string")]]]

/-- The schema that cannot be read takes the place of one whose type stays registered. -/
theorem inStep_unless_stranded_song :
    ∃ a, (ofDefinition (.text "Music") songSchema []).outcome = .ok a ∧
      (a.afterSchemas schemaCalls).InStep := by
  have hrun : (ofDefinition (.text "Music") songSchema []).outcome.toOption.map (fun a =>
      ((Table.keys a.schemaCollections).map Value.text?,
        (schemaCalls.flatMap tried).all fun e =>
          e.1.text?.any fun key => (a.afterSchemas schemaCalls).types.has key)) =
      some ([some "song"], true) := by
    decide +kernel
  obtain ⟨a, ha, heq⟩ := Option.map_eq_some_iff.1 hrun
  obtain ⟨hkeys, htried⟩ := Prod.mk.inj heq
  have haccepted := Except.eq_ok_of_toOption ha
  refine ⟨a, haccepted, (inStep_unless_stranded haccepted schemaCalls).1.2 ⟨?_, ?_⟩⟩
  · intro hempty
    have hmem := List.mem_map_of_mem (f := Value.text?) hempty
    rw [hkeys] at hmem
    exact absurd hmem (by decide)
  · intro e he _
    have hregisters := List.all_eq_true.1 htried e he
    obtain ⟨key, hkey, hhas⟩ := (Option.any_eq_true _ _).1 hregisters
    refine ⟨key, ?_, hhas⟩
    cases hname : e.1 with
    | text s =>
        rw [hname] at hkey
        exact congrArg Value.text (Option.some.inj hkey)
    | _ =>
        rw [hname] at hkey
        cases hkey

/-- A schema that cannot be read is kept under a name that is not registered. -/
theorem not_always_inStep :
    ¬ ∀ (title definition : Value) (registry : Registry) (a : Api),
      (ofDefinition title definition registry).outcome = .ok a → ∀ calls,
        (a.afterSchemas calls).InStep := by
  intro hclaim
  have hrun : (ofDefinition (.text "API") .null []).outcome.toOption.map (fun a =>
      let b := a.afterSchemas [.map [(.text "song", .text "\x7bbad")]]
      ((Table.keys b.schemaCollections).map Value.text?, b.types.has "song")) =
      some ([some "song"], false) := by
    decide
  obtain ⟨a, ha, heq⟩ := Option.map_eq_some_iff.1 hrun
  obtain ⟨hkeys, habsent⟩ := Prod.mk.inj heq
  have hstep := hclaim _ _ _ a (Except.eq_ok_of_toOption ha)
    [.map [(.text "song", .text "\x7bbad")]]
  obtain ⟨name, rest, hcons, hname, -⟩ := List.map_eq_cons_iff.1 hkeys
  have hkeeps : Keeps (a.afterSchemas [.map [(.text "song", .text "\x7bbad")]]) name :=
    List.mem_of_mem_head? (by rw [hcons]; rfl)
  obtain ⟨key, rfl, hhas⟩ := hstep name hkeeps
  obtain rfl := Option.some.inj hname
  exact absurd hhas (by simp [habsent])

end Api

end Raml
