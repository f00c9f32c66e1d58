import Raml.Api.Basic
import Raml.Proofs.DataType.Members
import Raml.Proofs.General.Ensuring
import Raml.Proofs.Registry.References

/-! # Types in use

The types that bodies and parameters check values with, wherever in an API they
stand. Whoever builds one of them resolves it if it is a reference, so that it
leads to a registered type; a type that a reference is nested in is not looked
into.
-/

namespace Raml

/-! ## Where types are used -/

/-- The type that checks the values of a parameter, if it does not check them itself. -/
def Parameter.typesInUse (p : Parameter) : List DataType := p.valueType.toList

def Parameters.typesInUse (ps : Parameters) : List DataType :=
  ps.flatMap fun e => e.2.typesInUse

def Body.typesInUse (b : Body) : List DataType := b.type.toList

def Bodies.typesInUse (bs : Bodies) : List DataType :=
  bs.flatMap fun e => e.2.typesInUse

/-- The types of the parameters that a security scheme adds to a request. -/
def SecurityDescription.typesInUse (s : SecurityDescription) : List DataType :=
  s.headers.typesInUse ++ s.queryParameters.typesInUse

def SecuritySchemes.typesInUse (ss : SecuritySchemes) : List DataType :=
  ss.flatMap fun e => e.2.describedBy.typesInUse

def Response.typesInUse (r : Response) : List DataType :=
  r.headers.typesInUse ++ r.bodies.typesInUse

def Method.typesInUse (m : Method) : List DataType :=
  m.headers.typesInUse ++ m.queryParameters.typesInUse ++ m.bodies.typesInUse ++
    m.responses.flatMap (fun e => e.2.typesInUse) ++ m.securitySchemes.typesInUse

def Resource.typesInUse (r : Resource) : List DataType :=
  r.baseUriParameters.typesInUse ++ r.uriParameters.typesInUse ++ r.securitySchemes.typesInUse ++
    r.methods.flatMap fun e => e.2.typesInUse

def Declarations.typesInUse (d : Declarations) : List DataType :=
  d.baseUriParameters.typesInUse ++ d.securitySchemes.typesInUse ++ d.securedBy.typesInUse

def Api.typesInUse (a : Api) : List DataType :=
  a.toDeclarations.typesInUse ++ a.allResources.flatMap Resource.typesInUse

/-! ## Types that lead to registered ones -/

/-- Whether each of several types that is a reference refers to a registered name. -/
def Registry.Leads (r : Registry) (ts : List DataType) : Prop :=
  ∀ t ∈ ts, ∀ target, t.target? = some target → r.has target = true

namespace Registry

variable {r : Registry} {ts us : List DataType} {α κ : Type}

@[simp] theorem leads_nil (r : Registry) : r.Leads [] := by
  simp [Leads]

@[simp] theorem leads_append : r.Leads (ts ++ us) ↔ r.Leads ts ∧ r.Leads us :=
  List.forall_mem_append

@[simp] theorem leads_flatMap {xs : List α} {f : α → List DataType} :
    r.Leads (xs.flatMap f) ↔ ∀ x ∈ xs, r.Leads (f x) := by
  simp only [Leads, List.mem_flatMap, forall_exists_index, and_imp]
  exact ⟨fun h x hx t ht => h t x hx ht, fun h t x hx ht => h x hx t ht⟩

theorem Leads.congr {s : Registry} (h : r.Leads ts) (hsame : ∀ name, s.has name = r.has name) :
    s.Leads ts :=
  fun t ht target htarget => (hsame target).trans (h t ht target htarget)

theorem leads_of_target? {t : DataType} (h : t.target? = none) : r.Leads [t] := by
  intro t' ht' target htarget
  obtain rfl := List.mem_singleton.1 ht'
  rw [h] at htarget
  cases htarget

theorem leads_of_resolve {t u : DataType} (h : t.resolve r = .ok u) : r.Leads [t] := by
  intro t' ht' target htarget
  obtain rfl := List.mem_singleton.1 ht'
  obtain ⟨names, -, hfollows⟩ := resolve_eq_ok_iff.1 h
  cases hfollows with
  | here hnone =>
      rw [hnone] at htarget
      cases htarget
  | step hget _ =>
      obtain rfl := Option.some.inj htarget
      simp [Table.has, hget]

end Registry

/-! ## Parameters -/

theorem Parameters.leads_iff {r : Registry} {ps : Parameters} :
    r.Leads ps.typesInUse ↔ Table.All (fun p => r.Leads p.typesInUse) ps :=
  Registry.leads_flatMap

theorem Field.readOptional_eq_ok {α : Type} {d : Mapping} {key other : String}
    {kind : Value → Option α} {a : Option α} (h : readOptional d key other kind = .ok a) :
    a = none ∨ ∃ v b, kind v = some b ∧ a = some b := by
  have hoptional : ∀ {v : Value}, optional kind v = some a →
      a = none ∨ ∃ v b, kind v = some b ∧ a = some b := fun {v} hv => by
    cases v with
    | null => exact .inl (Option.some.inj hv).symm
    | _ =>
        obtain ⟨b, hb, rfl⟩ := Option.map_eq_some_iff.1 hv
        exact .inr ⟨_, b, hb, rfl⟩
  simp only [readOptional, read] at h
  split at h
  · split at h
    · next hv =>
        obtain rfl := Checked.ok.inj h
        exact hoptional hv
    · cases h
  · split at h
    · split at h
      · next hv =>
          obtain rfl := Checked.ok.inj h
          exact hoptional hv
      · cases h
    · exact .inl (Checked.ok.inj h).symm

namespace Parameter

variable {r : Registry}

theorem read_leads {key : Value} {type : String} {d : Mapping} {valueType : Option DataType}
    (hvalue : r.Leads valueType.toList) :
    (read key type d valueType).Ensures fun p => r.Leads p.typesInUse := by
  refine .seq (Q := fun valueType => r.Leads valueType.toList) ?_ ?_
  · cases valueType with
    | some t =>
        intro found hfound
        rwa [← Checked.ok.inj hfound]
    | none =>
        intro found hfound
        rcases Field.readOptional_eq_ok hfound with rfl | ⟨v, t, ht, rfl⟩
        · exact Registry.leads_nil r
        · obtain ⟨c, rfl⟩ := DataType.untyped?_eq_some ht
          exact Registry.leads_of_target? rfl
  · iterate 13 refine .skip ?_
    exact .map _ fun _ _ _ _ _ _ _ _ _ _ _ _ _ _ _ h => h

variable (r : Registry)

theorem buildValueType_leads (key : Value) (d : Mapping) :
    (buildValueType (some r) key d).Ensures fun t => r.Leads [t] := by
  refine .then fun t => ?_
  cases ht : t.target? with
  | none =>
      refine .pure fun t' ht' target htarget => ?_
      obtain rfl := List.mem_singleton.1 ht'
      cases ht.symm.trans htarget
  | some target =>
      refine (Traced.Ensures.ofExcept fun u hu => ?_).bind fun u hu => .pure hu
      exact Registry.leads_of_resolve hu

theorem ofDefinition_leads (required : Bool) (key definition : Value) :
    (ofDefinition (some r) required key definition).Ensures fun p => r.Leads p.typesInUse := by
  refine .then fun d => .then fun written => .ite ?_ ?_
  · exact .bind (Q := fun valueType => valueType = none) (.pure rfl) fun valueType h =>
      .ofChecked (read_leads (by simp [h]))
  · exact .bind (.map (buildValueType_leads r key _)) fun _ h =>
      .ofChecked (read_leads h)

theorem ofOptional_leads (required : Bool) (v : Value) :
    (ofOptional (some r) required v).Ensures fun ps => r.Leads ps.typesInUse :=
  fun ps hps => Parameters.leads_iff.2
    (Traced.Ensures.records (fun _ _ e _ => ofDefinition_leads r required e.1 e.2) ps hps)

end Parameter

/-! ## Security schemes -/

namespace SecurityDescription

variable (r : Registry)

theorem ofDefinition_leads (v : Value) :
    (ofDefinition (some r) v).Ensures fun s => r.Leads s.typesInUse := by
  refine .then fun d => ?_
  refine .bind (Parameter.ofOptional_leads r false _) fun headers hheaders => ?_
  refine .bind (Parameter.ofOptional_leads r false _) fun queryParameters hquery => ?_
  exact .then fun _ => .pure (Registry.leads_append.2 ⟨hheaders, hquery⟩)

end SecurityDescription

namespace SecurityScheme

theorem read_describedBy {key : Value} {d : Mapping} {describedBy : SecurityDescription}
    {settings : Mapping} :
    (read key d describedBy settings).Ensures fun s => s.describedBy = describedBy := by
  refine .skip (.seq (Q := (· = describedBy)) (fun _ h => (Checked.ok.inj h).symm) ?_)
  iterate 3 refine .skip ?_
  exact .map _ fun _ _ _ _ _ h _ => h

theorem ofDefinition_leads (r : Registry) (key definition : Value) :
    (ofDefinition (some r) key definition).Ensures fun s => r.Leads s.describedBy.typesInUse := by
  unfold ofDefinition
  split
  all_goals
    refine .then fun d => .bind (SecurityDescription.ofDefinition_leads r _) fun described h => ?_
    refine .then fun _ => .ofChecked fun s hs => ?_
    rwa [read_describedBy s hs]

end SecurityScheme

namespace SecuritySchemes

variable {r : Registry} {schemes : SecuritySchemes}

theorem leads_iff :
    r.Leads schemes.typesInUse ↔ Table.All (fun s => r.Leads s.describedBy.typesInUse) schemes :=
  Registry.leads_flatMap

theorem ofEntry_leads (h : r.Leads schemes.typesInUse) {entry : Value} {s : SecurityScheme}
    (hs : schemes.ofEntry entry = .ok s) : r.Leads s.describedBy.typesInUse := by
  have hfind : ∀ {name : Value} {s : SecurityScheme}, schemes.find name = .ok s →
      r.Leads s.describedBy.typesInUse := by
    intro name s hs
    unfold find at hs
    split at hs
    · split at hs
      · next hget =>
          obtain rfl := Except.ok.inj hs
          exact (leads_iff.1 h).of_get? hget
      · cases hs
    · cases hs
  unfold ofEntry at hs
  split at hs
  · obtain rfl := Except.ok.inj hs
    exact Registry.leads_nil r
  · split at hs
    · obtain ⟨own, hown, hs⟩ := Except.bind_eq_ok_iff.1 hs
      have hleads := hfind hown
      unfold SecurityScheme.withSettings at hs
      split at hs
      · obtain rfl := Except.ok.inj hs
        exact hleads
      · cases hs
    · exact hfind hs

theorem resolve_leads (h : r.Leads schemes.typesInUse) {entries : Value} {found : SecuritySchemes}
    (hfound : schemes.resolve entries = .ok found) : r.Leads found.typesInUse := by
  obtain ⟨members, hmembers, hfound⟩ := Except.bind_eq_ok_iff.1 hfound
  obtain rfl := Except.ok.inj hfound
  have hall : Table.All (fun s => r.Leads s.describedBy.typesInUse)
      (members.map fun s => (s.key, s)) := by
    simp only [Table.All, List.mem_map, forall_exists_index, and_imp, forall_apply_eq_imp_iff₂]
    intro s hs
    obtain ⟨entry, -, hentry⟩ := exists_of_forall₂_right (forall₂_of_mapM hmembers) hs
    exact ofEntry_leads h hentry
  exact leads_iff.2 hall.ofList

end SecuritySchemes

/-! ## Bodies -/

namespace Body

variable (d : Declarations) (name : String)

theorem buildType_leads (definition : Value) :
    (buildType d name definition).Ensures fun t => d.types.Leads [t] := by
  refine .then fun t => ?_
  cases t with
  | reference c target bound =>
      refine .bind (Q := fun _ => d.types.Leads [.reference c target bound]) ?_ fun _ h => .pure h
      exact .ofExcept fun _ hu => Registry.leads_of_resolve hu
  | _ => exact .pure (Registry.leads_of_target? rfl)

theorem read_type {mediaType : Value} {entries : Mapping} {type : Option DataType} :
    (read mediaType entries type).Ensures fun b => b.type = type := by
  refine .skip (.skip (.seq (Q := (· = type)) (fun _ h => (Checked.ok.inj h).symm) ?_))
  exact .map _ fun _ _ h _ _ => h

theorem ofDefinition_leads (mediaType definition : Value) :
    (ofDefinition d name mediaType definition).Ensures fun b => d.types.Leads b.typesInUse := by
  have hread : ∀ {entries type}, d.types.Leads type.toList →
      (Traced.ofExcept ((read mediaType entries type).toExcept .body)).Ensures
        fun b => d.types.Leads b.typesInUse := by
    intro entries type h
    refine .ofChecked fun b hb => ?_
    rwa [typesInUse, read_type b hb]
  unfold ofDefinition
  split
  · exact hread (Registry.leads_nil _)
  · refine .then fun typed => .ite ?_ ?_
    · exact .bind (.map (buildType_leads d name _)) fun _ h => hread h
    · exact .bind (Q := (· = none)) (.pure rfl) fun _ h => hread (by simp [h])

theorem ofList_leads {d : Declarations} {bodies : List Body}
    (h : ∀ b ∈ bodies, d.types.Leads b.typesInUse) : d.types.Leads (ofList bodies).typesInUse := by
  have hall : Table.All (fun b => d.types.Leads b.typesInUse)
      (bodies.map fun b => (b.mediaType, b)) := by
    simpa [Table.All] using h
  exact Registry.leads_flatMap.2 hall.ofList

theorem ofUsual_leads (definition : Value) :
    (ofUsual d name definition).Ensures fun bs => d.types.Leads bs.typesInUse := by
  refine .bind (ofDefinition_leads d name _ _) fun b hb => .pure (ofList_leads ?_)
  simpa using hb

theorem ofAll_leads (definition : Value) :
    (ofAll d name definition).Ensures fun bs => d.types.Leads bs.typesInUse := by
  cases definition with
  | text s => exact ofUsual_leads d name _
  | map entries =>
      refine .ite (ofUsual_leads d name _) (.map ?_)
      intro bodies hbodies
      exact ofList_leads (Traced.Ensures.mapM (fun e _ => ofDefinition_leads d name e.1 e.2)
        bodies hbodies)
  | _ => exact .fault _

end Body

/-! ## Methods and responses -/

namespace Response

theorem ofDefinition_leads (d : Declarations) (verb : String) (code definition : Value) :
    (ofDefinition d verb code definition).Ensures fun r => d.types.Leads r.typesInUse := by
  refine .then fun status => .then fun entries => ?_
  refine .bind (Parameter.ofOptional_leads d.types false _) fun headers hheaders => ?_
  refine .bind (Body.ofAll_leads d _ _) fun bodies hbodies => .ofChecked ?_
  exact .map _ fun _ => Registry.leads_append.2 ⟨hheaders, hbodies⟩

end Response

namespace Method

variable {d : Declarations} {outer : SecuritySchemes}

theorem secured_leads (hd : d.types.Leads d.typesInUse) (houter : d.types.Leads outer.typesInUse)
    {entries : Mapping} {schemes : SecuritySchemes} (h : secured d outer entries = .ok schemes) :
    d.types.Leads schemes.typesInUse := by
  simp only [Declarations.typesInUse, Registry.leads_append] at hd
  unfold secured at h
  split at h
  · obtain rfl := Except.ok.inj h
    exact houter
  · obtain ⟨own, hown, h⟩ := Except.bind_eq_ok_iff.1 h
    obtain rfl := Except.ok.inj h
    have hown := SecuritySchemes.resolve_leads hd.1.2 hown
    exact SecuritySchemes.leads_iff.2
      (.overlay (SecuritySchemes.leads_iff.1 houter) (SecuritySchemes.leads_iff.1 hown))

theorem read_parameters {verb : String} {entries : Mapping} {headers queryParameters : Parameters}
    {protocols : List Value} {schemes : SecuritySchemes} :
    (read verb entries headers queryParameters protocols schemes).Ensures
      fun m => m.headers = headers ∧ m.queryParameters = queryParameters := by
  iterate 2 refine .skip ?_
  exact .map _ fun _ _ _ => ⟨rfl, rfl⟩

theorem readResponses_leads (d : Declarations) (verb : String) (v : Value) :
    (readResponses d verb v).Ensures
      fun responses => d.types.Leads (responses.flatMap fun e => e.2.typesInUse) := by
  refine .then fun entries => ?_
  refine (Traced.Ensures.mapM fun e _ => Response.ofDefinition_leads d verb e.1 e.2).bind ?_
  intro responses hresponses
  have hall : Table.All (fun r => d.types.Leads r.typesInUse)
      (responses.map fun r => (r.statusCode, r)) := by
    simpa [Table.All] using hresponses
  exact .pure (Registry.leads_flatMap.2 hall.ofList)

theorem withResponses_leads {m : Method} {bodies : Bodies} {securitySchemes : SecuritySchemes}
    {annotations : Annotations} {verb : String} {v : Value}
    (hhead : d.types.Leads (m.headers.typesInUse ++ m.queryParameters.typesInUse))
    (hbodies : d.types.Leads bodies.typesInUse)
    (houter : d.types.Leads securitySchemes.typesInUse) :
    (readResponses d verb v >>= fun responses =>
      pure { m with securitySchemes, annotations, bodies, responses }).Ensures
        fun m => d.types.Leads m.typesInUse := by
  refine (readResponses_leads d verb v).bind fun responses hresponses => .pure ?_
  simp only [typesInUse, Registry.leads_append] at hhead ⊢
  exact ⟨⟨⟨hhead, hbodies⟩, hresponses⟩, houter⟩

theorem ofDefinition_leads (hd : d.types.Leads d.typesInUse)
    (houter : d.types.Leads outer.typesInUse) (verb : String) (definition : Value) :
    (ofDefinition d outer verb definition).Ensures fun m => d.types.Leads m.typesInUse := by
  unfold ofDefinition
  split
  all_goals
    refine .then fun entries => ?_
    refine .bind (Parameter.ofOptional_leads d.types false _) fun headers hheaders => ?_
    refine .bind (Parameter.ofOptional_leads d.types false _) fun query hquery => ?_
    refine .then fun protocols => .bind (.ofChecked read_parameters) ?_
    rintro m ⟨rfl, rfl⟩
    refine .bind (.ofExcept fun _ h => secured_leads hd houter h) fun schemes hschemes => ?_
    refine .then fun annotations => ?_
    have hhead := Registry.leads_append.2 ⟨hheaders, hquery⟩
    dsimp only
    split
    · refine .bind (Q := fun bodies : Bodies => d.types.Leads bodies.typesInUse) ?_ ?_
      · exact .pure (Registry.leads_nil _)
      · exact fun bodies hbodies => withResponses_leads hhead hbodies hschemes
    · refine (Body.ofAll_leads d _ _).bind fun bodies hbodies => ?_
      exact withResponses_leads hhead hbodies hschemes

end Method

/-! ## Resources -/

namespace Resource

theorem preorderAll_eq (rs : List (String × Resource)) :
    preorderAll rs = rs.flatMap fun e => e.2.preorder := by
  induction rs with
  | nil => rfl
  | cons e rest ih =>
      obtain ⟨key, r⟩ := e
      simp [preorderAll, preorderOne, ih]

theorem preorder_eq (r : Resource) :
    r.preorder = r :: r.resources.flatMap fun e => e.2.preorder := by
  cases r
  simp [preorder, preorderAll_eq]

def treeTypesInUse (r : Resource) : List DataType :=
  r.preorder.flatMap typesInUse

variable {d : Declarations}

theorem treeTypesInUse_leads {r : Resource} :
    d.types.Leads r.treeTypesInUse ↔
      d.types.Leads r.typesInUse ∧
        Table.All (fun n => d.types.Leads n.treeTypesInUse) r.resources := by
  rw [treeTypesInUse, preorder_eq, List.flatMap_cons, List.flatMap_assoc, Registry.leads_append,
    Registry.leads_flatMap]
  rfl

theorem finished_leads {r : Resource} (hr : d.types.Leads r.treeTypesInUse) :
    r.finished.Ensures fun r => d.types.Leads r.treeTypesInUse :=
  .then fun _ => .pure hr

variable (hd : d.types.Leads d.typesInUse) {inherited : Inherited}
include hd

theorem read_leads (hinherited : d.types.Leads inherited.uriParameters.typesInUse)
    {uri relativeUri : String} {entries : Mapping} :
    (read d inherited uri relativeUri entries).Ensures fun r =>
      d.types.Leads r.typesInUse ∧ r.resources = [] := by
  simp only [Declarations.typesInUse, Registry.leads_append] at hd
  refine .skip (.map _ fun _ _ => ⟨?_, rfl⟩)
  simp only [typesInUse, Registry.leads_append]
  exact ⟨⟨⟨hd.1.1, hinherited⟩, hd.2⟩, Registry.leads_nil _⟩

theorem head_leads (hinherited : d.types.Leads inherited.uriParameters.typesInUse)
    (uri relativeUri : String) (entries : Mapping) :
    (head d inherited uri relativeUri entries).Ensures fun r => d.types.Leads r.treeTypesInUse := by
  refine .bind (.ofChecked (read_leads hd hinherited)) fun r ⟨hr, hnested⟩ => ?_
  simp only [typesInUse, Registry.leads_append] at hr
  refine .bind (Parameter.ofOptional_leads d.types true _) fun base hbase => ?_
  refine .bind (Parameter.ofOptional_leads d.types true _) fun own hown => ?_
  refine .bind (.ofExcept fun _ h => Method.secured_leads hd hr.1.2 h) fun schemes hschemes => ?_
  refine .then fun annotations => .pure (treeTypesInUse_leads.2 ⟨?_, by simp [hnested, Table.All]⟩)
  have hbase := Parameters.leads_iff.2
    (.overlay (Parameters.leads_iff.1 hr.1.1.1) (Parameters.leads_iff.1 hbase))
  have hown := Parameters.leads_iff.2
    (.overlay (Parameters.leads_iff.1 hr.1.1.2) (Parameters.leads_iff.1 hown))
  simp only [typesInUse, Registry.leads_append]
  exact ⟨⟨⟨hbase, hown⟩, hschemes⟩, hr.2⟩

/-- An entry adds a method or a nested resource, or nothing. -/
theorem addOne_leads {r : Resource} (hr : d.types.Leads r.treeTypesInUse) {e : Value × Value}
    (hbuild : ∀ uri key, (build d inherited uri key e.2).Ensures
      fun n => d.types.Leads n.treeTypesInUse) :
    (addOne d inherited r e).Ensures fun r => d.types.Leads r.treeTypesInUse := by
  obtain ⟨k, v⟩ := e
  have ⟨hown, hnested⟩ := treeTypesInUse_leads.1 hr
  refine .ite ?_ (.ite ?_ (.pure hr))
  · refine (hbuild _ _).bind fun n hn => .pure (treeTypesInUse_leads.2 ⟨hown, ?_⟩)
    exact hnested.insert hn
  · simp only [typesInUse, Registry.leads_append] at hown
    refine (Method.ofDefinition_leads hd hown.1.2 _ _).bind fun m hm => .pure ?_
    have hmethods : Table.All (fun m => d.types.Leads m.typesInUse) r.methods :=
      Registry.leads_flatMap.1 hown.2
    refine treeTypesInUse_leads.2 ⟨?_, hnested⟩
    simp only [typesInUse, Registry.leads_append]
    exact ⟨hown.1, Registry.leads_flatMap.2 (hmethods.insert hm)⟩

theorem addAll_leads {r : Resource} (hr : d.types.Leads r.treeTypesInUse)
    {entries : List (Value × Value)}
    (hbuild : ∀ e ∈ entries, ∀ uri key, (build d inherited uri key e.2).Ensures
      fun n => d.types.Leads n.treeTypesInUse) :
    (addAll d inherited r entries).Ensures fun r => d.types.Leads r.treeTypesInUse := by
  induction entries generalizing r with
  | nil => exact .pure hr
  | cons e rest ih =>
      refine (addOne_leads hd hr (hbuild e (by simp))).bind fun r hr => ?_
      exact ih hr fun e' he' => hbuild e' (List.mem_cons_of_mem _ he')

theorem build_leads (hinherited : d.types.Leads inherited.uriParameters.typesInUse)
    (uri relativeUri : String) (definition : Value) :
    (build d inherited uri relativeUri definition).Ensures
      fun r => d.types.Leads r.treeTypesInUse := by
  generalize hw : definition.weight = w
  induction w using Nat.strongRecOn generalizing definition inherited uri relativeUri with
  | ind w ih =>
      have hhead := head_leads hd hinherited uri relativeUri
      cases definition with
      | map entries =>
          refine (hhead entries).bind fun r hr => ?_
          have hown := (treeTypesInUse_leads.1 hr).1
          simp only [typesInUse, Registry.leads_append] at hown
          refine (addAll_leads hd hr fun e he uri' key => ?_).bind fun r hr => finished_leads hr
          exact ih _ (hw ▸ Value.weight_lt_of_mem he) hown.1.1.2 uri' key e.2 rfl
      | _ =>
          refine .ite ?_ (.fault _)
          exact (hhead []).bind fun r hr => finished_leads hr

theorem ofDefinition_leads (uri definition : Value) :
    (ofDefinition d uri definition).Ensures fun r => d.types.Leads r.treeTypesInUse := by
  unfold ofDefinition
  split
  · exact .ite (build_leads hd (Registry.leads_nil _) _ _ _) (.fault _)
  · exact .fault _

end Resource

end Raml
