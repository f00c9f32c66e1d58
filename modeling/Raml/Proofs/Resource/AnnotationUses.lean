import Raml.Proofs.Api.BuiltResources

/-! # Uses of annotations

An annotation may be used on a node if its annotation type is declared and
allows nodes of that kind. Where a definition is accepted, this holds of every
annotation that one of its nodes carries, and so of every annotation that the
API, its resources and their methods have, be it their own or inherited.
-/

namespace Raml

/-! ## One node -/

namespace AnnotationTypes

variable {types : AnnotationTypes} {target : AnnotationTarget} {name : String}

def Allow (types : AnnotationTypes) (target : AnnotationTarget) (name : String) : Prop :=
  ∃ t, types.get? name = some t ∧ t.allows target = true

inductive Refuse (types : AnnotationTypes) (target : AnnotationTarget) (name : String) :
    Fault → Prop
  | undeclared (h : types.get? name = none) :
      Refuse types target name (.undefinedAnnotationType name)
  | forbidden {t : AnnotationType} (h : types.get? name = some t) (ht : t.allows target = false) :
      Refuse types target name (.forbiddenTarget name target.text)

theorem Refuse.not_allow {f : Fault} (h : types.Refuse target name f) :
    ¬ types.Allow target name := by
  rintro ⟨t, ht, hallows⟩
  cases h with
  | undeclared h => cases h.symm.trans ht
  | forbidden h hforbids =>
      obtain rfl := Option.some.inj (h.symm.trans ht)
      exact Bool.false_ne_true (hforbids.symm.trans hallows)

/-- The use of an annotation succeeds where it is allowed, and is refused elsewhere. -/
theorem ofUse_cases (types : AnnotationTypes) (target : AnnotationTarget) (name : String)
    (v : Value) :
    types.Allow target name ∧ Annotation.ofUse types target name v = .ok ⟨name, v⟩ ∨
      ∃ f, types.Refuse target name f ∧ Annotation.ofUse types target name v = .error f := by
  unfold Annotation.ofUse
  cases hget : types.get? name with
  | none => exact .inr ⟨_, .undeclared hget, rfl⟩
  | some t =>
      cases hallows : t.allows target with
      | true => exact .inl ⟨⟨t, hget, hallows⟩, by simp [hallows]⟩
      | false => exact .inr ⟨_, .forbidden hget hallows, by simp [hallows]⟩

theorem ofUse_eq_ok {v : Value} {a : Annotation}
    (h : Annotation.ofUse types target name v = .ok a) :
    types.Allow target name ∧ a.key = name := by
  rcases ofUse_cases types target name v with ⟨hallow, hok⟩ | ⟨f, -, herror⟩
  · obtain rfl := Except.ok.inj (hok.symm.trans h)
    exact ⟨hallow, rfl⟩
  · cases herror.symm.trans h

end AnnotationTypes

def Mapping.Annotate (entries : Mapping) (name : String) : Prop :=
  ∃ e ∈ entries, Annotation.nameOf? e.1.shown = some name

namespace Annotations

variable {types : AnnotationTypes} {target : AnnotationTarget} {entries : Mapping}

def AllowedBy (types : AnnotationTypes) (target : AnnotationTarget) (annotations : Annotations) :
    Prop :=
  ∀ e ∈ annotations, e.1 = e.2.key ∧ types.Allow target e.1

theorem AllowedBy.nil : AllowedBy types target [] := by
  simp [AllowedBy]

theorem AllowedBy.overlay {base top : Annotations} (hbase : AllowedBy types target base)
    (htop : AllowedBy types target top) : AllowedBy types target (Table.overlay base top) :=
  fun e he => (Table.mem_of_mem_overlay he).elim (hbase e) (htop e)

def named (entries : Mapping) : List (String × Value) :=
  entries.filterMap fun e => Annotation.nameOf? e.1.shown |>.map (·, e.2)

theorem annotate_iff {name : String} : entries.Annotate name ↔ ∃ v, (name, v) ∈ named entries := by
  simp only [Mapping.Annotate, named, List.mem_filterMap, Option.map_eq_some_iff, Prod.mk.injEq]
  constructor
  · rintro ⟨e, he, hname⟩
    exact ⟨e.2, e, he, name, hname, rfl, rfl⟩
  · rintro ⟨v, e, he, _, hname, rfl, -⟩
    exact ⟨e, he, hname⟩

theorem ofEntries_cases (types : AnnotationTypes) (target : AnnotationTarget) (entries : Mapping) :
    (∃ annotations, ofEntries types target entries = .ok annotations ∧
      annotations.AllowedBy types target ∧
        ∀ name, entries.Annotate name → types.Allow target name) ∨
      ∃ f name, ofEntries types target entries = .error f ∧ entries.Annotate name ∧
        types.Refuse target name f := by
  have hrun : ofEntries types target entries =
      (named entries).mapM (fun e => Annotation.ofUse types target e.1 e.2) >>= fun found =>
        .ok (Table.ofList (found.map fun a => (a.key, a))) := rfl
  cases hfound : (named entries).mapM fun e => Annotation.ofUse types target e.1 e.2 with
  | ok found =>
      have hused := forall₂_of_mapM hfound
      refine .inl ⟨Table.ofList (found.map fun a => (a.key, a)), by rw [hrun, hfound]; rfl, ?_, ?_⟩
      · refine AllowedBy.nil.overlay fun e he => ?_
        obtain ⟨a, ha, rfl⟩ := List.mem_map.1 he
        obtain ⟨use, -, huse⟩ := exists_of_forall₂_right hused ha
        obtain ⟨hallow, hkey⟩ := AnnotationTypes.ofUse_eq_ok huse
        exact ⟨rfl, hkey ▸ hallow⟩
      · intro name hname
        obtain ⟨v, hv⟩ := annotate_iff.1 hname
        obtain ⟨a, -, ha⟩ := exists_of_forall₂_left hused hv
        exact (AnnotationTypes.ofUse_eq_ok ha).1
  | error f =>
      obtain ⟨e, he, herror⟩ := exists_of_mapM_eq_error hfound
      refine .inr ⟨f, e.1, by rw [hrun, hfound]; rfl, annotate_iff.2 ⟨e.2, he⟩, ?_⟩
      rcases AnnotationTypes.ofUse_cases types target e.1 e.2 with ⟨-, hok⟩ | ⟨f', hrefuse, hf'⟩
      · cases hok.symm.trans herror
      · obtain rfl := Except.error.inj (hf'.symm.trans herror)
        exact hrefuse

theorem ofEntries_eq_ok {annotations : Annotations}
    (h : ofEntries types target entries = .ok annotations) :
    annotations.AllowedBy types target ∧
      ∀ name, entries.Annotate name → types.Allow target name := by
  rcases ofEntries_cases types target entries with ⟨found, hok, hallowed⟩ | ⟨f, _, herror, -, -⟩
  · obtain rfl := Except.ok.inj (hok.symm.trans h)
    exact hallowed
  · cases herror.symm.trans h

end Annotations

/-! ## Methods and resources -/

theorem Method.ofDefinition_annotations {d : Declarations} {schemes : SecuritySchemes}
    {verb : String} {definition : Value} {m : Method}
    (h : (ofDefinition d schemes verb definition).outcome = .ok m) :
    ∃ entries, definition.optionalEntries = .ok entries ∧
      Annotations.ofEntries d.annotationTypes .method entries = .ok m.annotations := by
  unfold ofDefinition at h
  cases hentries : definition.optionalEntries with
  | error f =>
      rw [hentries] at h
      cases h
  | ok entries =>
      rw [hentries] at h
      obtain ⟨_, hpure, h⟩ := Traced.bind_eq_ok_iff.1 h
      obtain rfl := Except.ok.inj hpure
      iterate 5 obtain ⟨_, -, h⟩ := Traced.bind_eq_ok_iff.1 h
      obtain ⟨annotations, hannotations, h⟩ := Traced.bind_eq_ok_iff.1 h
      have hkept : m.annotations = annotations := by
        dsimp only at h
        split at h
        all_goals
          obtain ⟨bodies, -, h⟩ := Traced.bind_eq_ok_iff.1 h
          obtain ⟨responses, -, h⟩ := Traced.bind_eq_ok_iff.1 h
          obtain rfl := Except.ok.inj h
          rfl
      exact ⟨entries, rfl, hkept ▸ hannotations⟩

namespace Resource

/-- Whether a definition of a resource carries an annotation, on itself, on a method or on a nested
resource. -/
inductive Carries : Value → AnnotationTarget → String → Prop
  | own {entries : Mapping} {name : String} (h : entries.Annotate name) :
      Carries (.map entries) .resource name
  | method {entries own : Mapping} {e : Value × Value} {name : String}
      (he : e ∈ methodEntries entries) (hown : e.2 = .map own) (h : own.Annotate name) :
      Carries (.map entries) .method name
  | nested {entries : Mapping} {e : Value × Value} {target : AnnotationTarget} {name : String}
      (he : e ∈ nestedEntries entries) (h : Carries e.2 target name) :
      Carries (.map entries) target name

structure AllowedBy (types : AnnotationTypes) (r : Resource) : Prop where
  own : r.annotations.AllowedBy types .resource
  methods : ∀ e ∈ r.methods, e.2.annotations.AllowedBy types .method

variable {d : Declarations} {inherited : Inherited}

theorem Makes.allowedBy {entries : Mapping} {r₀ r : Resource}
    (hinherited : inherited.annotations.AllowedBy d.annotationTypes .resource)
    (h : Makes d inherited entries r₀ r) :
    r₀.annotations.AllowedBy d.annotationTypes .resource ∧ r.AllowedBy d.annotationTypes := by
  obtain ⟨uri, relativeUri, methods, nested, hhead, hmethods, rfl⟩ := h
  obtain ⟨declared, hdeclared, hoverlay⟩ := (head_isHead hhead).annotations
  have hown : r₀.annotations.AllowedBy d.annotationTypes .resource := by
    rw [hoverlay]
    exact hinherited.overlay (Annotations.ofEntries_eq_ok hdeclared).1
  refine ⟨hown, hown, fun e he => ?_⟩
  obtain ⟨verb, hmem⟩ := Table.mem_ofList he
  obtain ⟨m, hm, heq⟩ := List.mem_map.1 hmem
  obtain ⟨rfl, rfl⟩ := Prod.mk.inj heq
  obtain ⟨entry, -, hbuilt⟩ := exists_of_forall₂_right (forall₂_of_mapM hmethods) hm
  obtain ⟨own, -, hannotations⟩ := Method.ofDefinition_annotations hbuilt
  exact (Annotations.ofEntries_eq_ok hannotations).1

/-- Where a resource is built, its definition carries allowed annotations only. -/
theorem allow_of_carries {definition : Value} {target : AnnotationTarget} {name : String}
    (hcarries : Carries definition target name) {uri relativeUri : String} {r : Resource}
    (h : (build d inherited uri relativeUri definition).outcome = .ok r) :
    d.annotationTypes.Allow target name := by
  induction hcarries generalizing inherited uri relativeUri r with
  | own hname =>
      obtain ⟨entries, r₀, methods, nested, hentries, hhead, -, -, -⟩ := build_eq_ok h
      obtain rfl := Except.ok.inj ((optionalEntries_map _).symm.trans hentries)
      obtain ⟨declared, hdeclared, -⟩ := (head_isHead hhead).annotations
      exact (Annotations.ofEntries_eq_ok hdeclared).2 _ hname
  | method he hown hname =>
      obtain ⟨entries, r₀, methods, nested, hentries, -, hmethods, -, -⟩ := build_eq_ok h
      obtain rfl := Except.ok.inj ((optionalEntries_map _).symm.trans hentries)
      obtain ⟨m, -, hbuilt⟩ := exists_of_forall₂_left (forall₂_of_mapM hmethods) he
      obtain ⟨own, hown', hannotations⟩ := Method.ofDefinition_annotations hbuilt
      obtain rfl := Except.ok.inj ((hown ▸ optionalEntries_map _).symm.trans hown')
      exact (Annotations.ofEntries_eq_ok hannotations).2 _ hname
  | nested he _ ih =>
      obtain ⟨entries, r₀, methods, nested, hentries, -, -, hnested, -⟩ := build_eq_ok h
      obtain rfl := Except.ok.inj ((optionalEntries_map _).symm.trans hentries)
      obtain ⟨n, -, -, hbuilt⟩ := exists_of_forall₂_left (readNested_built hnested) he
      exact ih hbuilt

end Resource

/-! ## The whole API -/

namespace Api

inductive Carries : Value → AnnotationTarget → String → Prop
  | own {entries : Mapping} {name : String} (h : entries.Annotate name) :
      Carries (.map entries) .api name
  | resource {entries : Mapping} {e : String × Value} {target : AnnotationTarget} {name : String}
      (he : e ∈ resourceEntries entries) (h : Resource.Carries e.2 target name) :
      Carries (.map entries) target name

variable {title definition : Value} {registry : Registry} {a : Api}

/-- An accepted definition carries allowed annotations only. -/
theorem allow_of_carries (h : (ofDefinition title definition registry).outcome = .ok a)
    {target : AnnotationTarget} {name : String} (hcarries : Carries definition target name) :
    a.annotationTypes.Allow target name := by
  obtain ⟨entries, hentries, hmade⟩ := ofDefinition_madeOf h
  cases hcarries with
  | own hname =>
      obtain rfl := Except.ok.inj ((Resource.optionalEntries_map _).symm.trans hentries)
      exact (Annotations.ofEntries_eq_ok hmade.annotations).2 _ hname
  | resource he hresource =>
      obtain rfl := Except.ok.inj ((Resource.optionalEntries_map _).symm.trans hentries)
      obtain ⟨n, -, -, hbuilt⟩ := exists_of_forall₂_left hmade.resources he
      exact Resource.allow_of_carries hresource (Resource.ofDefinition_build hbuilt)

/-- Whether all annotations of an API, its resources and their methods may be used there. -/
structure AllowedThroughout (a : Api) : Prop where
  own : a.annotations.AllowedBy a.annotationTypes .api
  resources : ∀ r ∈ a.allResources, r.AllowedBy a.annotationTypes

theorem ofDefinition_allowedThroughout
    (h : (ofDefinition title definition registry).outcome = .ok a) : a.AllowedThroughout := by
  obtain ⟨entries, -, hmade⟩ := ofDefinition_madeOf h
  refine ⟨(Annotations.ofEntries_eq_ok hmade.annotations).1, ?_⟩
  exact forall_allResources h
    (I := fun inherited => inherited.annotations.AllowedBy a.annotationTypes .resource) .nil
    fun _ _ _ _ hinherited hmakes => hmakes.allowedBy hinherited

end Api

end Raml
