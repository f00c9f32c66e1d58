import Raml.Proofs.Api.DeclaredTypes
import Raml.Proofs.Resource.Tree

/-! # What an API is made of

The annotations and the resources of a built API are read with its own
declarations. Every resource in its tree is made by its own entries, these
declarations and what it inherits. So what holds of each resource that is made
so, provided that it hands on what it needs, holds of all resources of the API.
-/

namespace Raml

namespace Resource

variable {d : Declarations} {I : Inherited → Prop} {P : Resource → Prop}

/-- What the entries of a resource make of it, apart from the resources nested in it. -/
def Makes (d : Declarations) (inherited : Inherited) (entries : Mapping) (head r : Resource) :
    Prop :=
  ∃ uri relativeUri methods nested,
    (Resource.head d inherited uri relativeUri entries).outcome = .ok head ∧
      readMethods d head.securitySchemes entries = .ok methods ∧
      r = { head with
        methods := Table.ofList (methods.map fun m => (m.verb, m))
        resources := nested }

theorem weight_lt_of_optionalEntries {definition : Value} {entries : Mapping}
    (h : definition.optionalEntries = .ok entries) {e : Value × Value} (he : e ∈ entries) :
    e.2.weight < definition.weight := by
  unfold Value.optionalEntries at h
  split at h
  · obtain rfl := Except.ok.inj h
    cases he
  · split at h
    · obtain rfl := Except.ok.inj h
      exact Value.weight_lt_of_mem he
    · cases h

theorem build_forall
    (hnode : ∀ inherited entries r₀ r, I inherited → Makes d inherited entries r₀ r →
      I (.ofResource r₀) ∧ P r)
    {inherited : Inherited} (hinherited : I inherited) {uri relativeUri : String}
    {definition : Value} {r : Resource}
    (h : (build d inherited uri relativeUri definition).outcome = .ok r) :
    ∀ s ∈ r.preorder, P s := by
  generalize hw : definition.weight = w
  induction w using Nat.strongRecOn generalizing definition inherited uri relativeUri r with
  | ind w ih =>
      obtain ⟨entries, r₀, methods, nested, hentries, hhead, hmethods, hnested, rfl⟩ :=
        build_eq_ok h
      have hmakes : Makes d inherited entries r₀ { r₀ with
          methods := Table.ofList (methods.map fun m => (m.verb, m))
          resources := Table.ofList nested } :=
        ⟨uri, relativeUri, methods, _, hhead, hmethods, rfl⟩
      obtain ⟨hhandedOn, hown⟩ := hnode inherited entries r₀ _ hinherited hmakes
      intro s hs
      rw [preorder_eq] at hs
      rcases List.mem_cons.1 hs with rfl | hs
      · exact hown
      · obtain ⟨⟨key, child⟩, hchild, hs⟩ := List.mem_flatMap.1 hs
        -- a nested resource is built of an entry, which weighs less than the entries do
        obtain ⟨key', hmem⟩ := Table.mem_ofList hchild
        obtain ⟨e, he, -, hbuild⟩ := exists_of_forall₂_right (readNested_built hnested) hmem
        have hweight := weight_lt_of_optionalEntries hentries (List.mem_filter.1 he).1
        rw [hw] at hweight
        exact ih _ hweight hhandedOn hbuild rfl s hs

end Resource

/-! ## Accepted definitions -/

namespace Edit

variable {σ α β : Type} {P : σ → Prop}

theorem Ensures.mapM_forall₂ {f : α → Edit σ β} {xs : List α} {Q : α → β → Prop}
    (h : ∀ a, Ensures P (f a) fun b s => Q a b ∧ P s) :
    Ensures P (xs.mapM f) fun bs s => List.Forall₂ Q xs bs ∧ P s := by
  induction xs with
  | nil => exact .pure fun s hs => ⟨.nil, hs⟩
  | cons a rest ih =>
      rw [List.mapM_cons]
      refine (h a).bind fun b s ⟨hb, hs⟩ => ih.bind (fun bs => ?_) s hs
      exact .pure fun s ⟨hbs, hs⟩ => ⟨.cons hb hbs, hs⟩

end Edit

namespace Api

open Edit (Ensures)

def AnnotatedBy (entries : Mapping) (a : Api) : Prop :=
  Annotations.ofEntries a.annotationTypes .api entries = .ok a.annotations

def Declares (d : Declarations) (e : String × Value) (n : String × Resource) : Prop :=
  n.1 = e.1 ∧ (Resource.ofDefinition d (.text e.1) e.2).outcome = .ok n.2

/-- Whether annotations and resources of an API are those of some entries. -/
structure MadeOf (entries : Mapping) (a : Api) : Prop where
  annotations : a.AnnotatedBy entries
  resources : List.Forall₂ (Declares a.toDeclarations) (resourceEntries entries) a.resources

theorem declareUses_annotatedBy (entries : Mapping) :
    Ensures (fun _ => True) (declareUses entries) fun _ => AnnotatedBy entries := by
  refine .get fun a _ => .traced fun annotationTypes _ => .traced fun schemes _ => ?_
  refine .except fun securedBy _ => .except fun uses _ => .except fun annotations h => ?_
  exact .modify fun _ _ => h

theorem onTypes_annotatedBy (entries : Mapping) (x : Edit Registry Unit) :
    Ensures (AnnotatedBy entries) (onTypes x) fun _ => AnnotatedBy entries := by
  refine .onPart fun a ha => ?_
  rintro _ rfl u types -
  exact ha

theorem addResources_madeOf (entries : Mapping) :
    Ensures (AnnotatedBy entries) (addResources entries) fun _ => MadeOf entries := by
  refine .get fun a ha => .bind (.mapM_forall₂ (Q := Declares a.toDeclarations) fun e => ?_) ?_
  · refine .traced fun r hr => .pure fun s hs => ⟨⟨rfl, hr⟩, hs⟩
  · refine fun resources => .modify fun s h => ?_
    obtain ⟨hresources, rfl⟩ := h
    exact ⟨ha, hresources⟩

theorem addEntries_madeOf (entries : Mapping) :
    Ensures (fun _ => True) (addEntries entries) fun _ => MadeOf entries := by
  have skip : ∀ {α β : Type} {x : Edit Api α} {f : α → Edit Api β} {R : β → Api → Prop},
      (∀ a, Ensures (fun _ => True) (f a) R) → Ensures (fun _ => True) (x >>= f) R :=
    fun h => .keep (fun _ _ _ _ _ => True.intro) h
  refine skip fun _ => skip fun _ => skip fun _ => ?_
  refine (declareUses_annotatedBy entries).bind fun _ => ?_
  refine .keep (onTypes_annotatedBy entries _) fun _ => ?_
  exact (addResources_madeOf entries).bind fun _ => .get fun a ha => .last fun s hs _ => hs ▸ ha

theorem ofDefinition_map (title : Value) (entries : Mapping) (registry : Registry) :
    (ofDefinition title (.map entries) registry).outcome =
      if isExclusive entries then .error .exclusive
      else (readTitle title).bind fun text =>
        let change := addEntries entries { ofTitle text with types := [] }
        change.outcome.map fun _ => change.state := by
  unfold ofDefinition
  rw [Resource.optionalEntries_map]
  rw [Edit.outcome_bind_ok]
  dsimp only
  cases isExclusive entries with
  | true => rfl
  | false => cases readTitle title <;> rfl

theorem ofDefinition_eq_ok {title definition : Value} {registry : Registry} {a : Api}
    (h : (ofDefinition title definition registry).outcome = .ok a) :
    ∃ entries text, definition.optionalEntries = .ok entries ∧ isExclusive entries = false ∧
      readTitle title = .ok text ∧
      (addEntries entries { ofTitle text with types := [] }).result = (a, .ok ()) := by
  have hrun : Ensures (fun _ => True) (ofDefinition title definition) fun a _ =>
      ∃ entries text, definition.optionalEntries = .ok entries ∧ isExclusive entries = false ∧
        readTitle title = .ok text ∧
        (addEntries entries { ofTitle text with types := [] }).result = (a, .ok ()) := by
    refine .except fun entries hentries => ?_
    split
    · exact .bind (Q := fun _ _ => False) (.fail _) fun _ s hs => hs.elim
    · next hexclusive =>
        refine .except fun text htext => ?_
        refine .bind (Q := fun _ r => r = []) (.set fun _ _ => rfl) fun _ => ?_
        rintro _ rfl a r hrun
        obtain ⟨u, hu, rfl⟩ := Except.map_eq_ok_iff.1 (congrArg Prod.snd hrun)
        exact ⟨entries, text, hentries, by simpa using hexclusive, htext, Prod.ext rfl hu⟩
  exact hrun registry trivial a _ (Prod.ext rfl h)

theorem ofDefinition_madeOf {title definition : Value} {registry : Registry} {a : Api}
    (h : (ofDefinition title definition registry).outcome = .ok a) :
    ∃ entries, definition.optionalEntries = .ok entries ∧ a.MadeOf entries := by
  obtain ⟨entries, text, hentries, -, -, hrun⟩ := ofDefinition_eq_ok h
  exact ⟨entries, hentries, addEntries_madeOf entries _ trivial () a hrun⟩

theorem forall_allResources {title definition : Value} {registry : Registry} {a : Api}
    (h : (ofDefinition title definition registry).outcome = .ok a) {I : Inherited → Prop}
    {P : Resource → Prop} (hnone : I .none)
    (hnode : ∀ inherited entries r₀ r, I inherited →
      Resource.Makes a.toDeclarations inherited entries r₀ r → I (.ofResource r₀) ∧ P r) :
    ∀ r ∈ a.allResources, P r := by
  obtain ⟨entries, -, hmade⟩ := ofDefinition_madeOf h
  intro r hr
  rw [allResources, Resource.preorderAll_eq] at hr
  obtain ⟨n, hn, hr⟩ := List.mem_flatMap.1 hr
  obtain ⟨e, -, -, hbuild⟩ := exists_of_forall₂_right hmade.resources hn
  exact Resource.build_forall hnode hnone (Resource.ofDefinition_build hbuild) r hr

end Api

end Raml
