import Raml.Api.Document
import Raml.Proofs.Api.BuiltResources
import Raml.Proofs.Api.DeclaredTypes
import Raml.Proofs.Api.Misshapen

/-! # Faults of parsing

A text that is not parsed fails with a documented fault, unless it cannot be
decoded, or the document has a shape somewhere that is not checked. A definition
is followed line by line: what is registered on the way has no misfit that was
not declared, so that applying inheritance brings none.
-/

namespace Raml

open Declaration (Misfit)

/-! ## Edits -/

namespace Edit

variable {σ τ α β : Type} {M : Prop} {P : σ → Prop} {Q : α → σ → Prop} {R : β → σ → Prop}

/-- Whether an edit leads from one condition on the state to another, or fails with a documented
fault unless something is misshapen. -/
def Meets (M : Prop) (P : σ → Prop) (x : Edit σ α) (Q : α → σ → Prop) : Prop :=
  ∀ s, P s →
    match (x s).result with
    | (s', .ok a) => Q a s'
    | (_, .error f) => f.DocumentedUnless M

theorem Meets.documented {x : Edit σ α} (h : Meets M P x Q) {s : σ} (hs : P s) :
    DocumentedUnless M (x s).outcome := by
  intro f hf
  have hrun := h s hs
  rwa [Change.result, hf] at hrun

theorem Meets.pure {a : α} (h : ∀ s, P s → Q a s) : Meets M P (Pure.pure a) Q := h

theorem Meets.set {t : σ} {Q : Unit → σ → Prop} (h : ∀ s, P s → Q () t) :
    Meets M P (Edit.set t) Q := h

theorem Meets.modify {f : σ → σ} {Q : Unit → σ → Prop} (h : ∀ s, P s → Q () (f s)) :
    Meets M P (Edit.modify f) Q := h

theorem Meets.fail {f : Fault} (h : f.isOfParsing = true) : Meets M P (Edit.fail f) Q :=
  fun _ _ => .inl h

theorem Meets.bind {x : Edit σ α} {f : α → Edit σ β} (hx : Meets M P x Q)
    (hf : ∀ a, Meets M (Q a) (f a) R) : Meets M P (x >>= f) R := by
  intro s hs
  have hfirst := hx s hs
  rw [result_bind]
  rcases hrun : (x s).result with ⟨s', e | a⟩
  · rwa [hrun] at hfirst
  · rw [hrun] at hfirst
    exact hf a s' hfirst

theorem Meets.keep {x : Edit σ α} {f : α → Edit σ β} (hx : Meets M P x fun _ => P)
    (hf : ∀ a, Meets M P (f a) R) : Meets M P (x >>= f) R :=
  hx.bind hf

theorem Meets.traced {x : Traced α} {f : α → Edit σ β} (hx : x.DocumentedUnless M)
    (hf : ∀ a, x.outcome = .ok a → Meets M P (f a) R) : Meets M P ((x : Edit σ α) >>= f) R := by
  intro s hs
  rw [result_bind, result_traced]
  cases ha : x.outcome with
  | error e => exact hx e ha
  | ok a => exact hf a ha s hs

theorem Meets.except {x : Except Fault α} {f : α → Edit σ β} (hx : DocumentedUnless M x)
    (hf : ∀ a, x = .ok a → Meets M P (f a) R) : Meets M P ((x : Edit σ α) >>= f) R :=
  Meets.traced (x := Traced.ofExcept x) hx hf

theorem Meets.get {f : σ → Edit σ β} (h : ∀ s, P s → Meets M (· = s) (f s) R) :
    Meets M P (Edit.get >>= f) R := by
  intro s hs
  rw [result_bind_ok (result_get s)]
  exact h s hs s rfl

theorem Meets.forEach {f : α → Edit σ Unit} {xs : List α}
    (h : ∀ a ∈ xs, Meets M P (f a) fun _ => P) : Meets M P (Edit.forEach f xs) fun _ => P := by
  induction xs with
  | nil => exact .pure fun _ => id
  | cons a rest ih =>
      exact (h a (by simp)).bind fun _ => ih fun b hb => h b (List.mem_cons_of_mem a hb)

theorem Meets.mapM {f : α → Edit σ β} {xs : List α} (h : ∀ a ∈ xs, Meets M P (f a) fun _ => P) :
    Meets M P (xs.mapM f) fun _ => P := by
  induction xs with
  | nil => exact .pure fun _ => id
  | cons a rest ih =>
      rw [List.mapM_cons]
      refine (h a (by simp)).bind fun b => ?_
      exact (ih fun b hb => h b (List.mem_cons_of_mem a hb)).bind fun bs => .pure fun _ => id

theorem Meets.onPart {part : σ → τ} {replace : τ → σ → σ} {x : Edit τ α}
    (h : ∀ s, P s → Meets M (· = part s) x fun a t => Q a (replace t s)) :
    Meets M P (Edit.onPart part replace x) Q := by
  intro s hs
  have hpart := h s hs (part s) rfl
  simp only [Edit.onPart, Change.result] at hpart ⊢
  cases hx : (x (part s)).outcome with
  | error e => simpa [hx] using hpart
  | ok a => simpa [hx] using hpart

end Edit

/-! ## Registered types -/

namespace Registry

open Edit (Meets)

variable {M : Prop} {r : Registry}

/-- Whether the types of a registry are well-formed, and without misfits unless something is
misshapen. -/
structure Sound (M : Prop) (r : Registry) : Prop where
  wellFormed : r.WellFormed
  misfit : r.HasMisfit → M

theorem Sound.nil : Sound M [] := ⟨.nil, fun ⟨_, _, hget, _⟩ => nomatch hget⟩

theorem Sound.add (h : r.Sound M) {t : DataType} (ht : t.IsBuilt)
    (hmisfit : Misfit (.map t.declaration) → M) (key : Option String) :
    Sound M (r.add t key) where
  wellFormed := h.wellFormed.add ht key
  misfit := by
    rintro ⟨name, u, hget, hu⟩
    rw [get?_add] at hget
    split at hget
    · obtain rfl := Option.some.inj hget
      exact hmisfit (by rwa [DataType.declaration_withBinding] at hu)
    · exact h.misfit ⟨name, u, hget, hu⟩

theorem register_meets {t : DataType} (ht : t.IsBuilt) (hmisfit : Misfit (.map t.declaration) → M)
    (key : Option String) : Meets M (Sound M) (register t key) fun _ => Sound M :=
  .traced (FailsOnly.ok _) fun _ _ => Meets.get fun _ hr => .set fun _ _ => hr.add ht hmisfit key

theorem declare_meets {name definition : Value} (h : Misfit definition → M) :
    Meets M (Sound M) (declare name definition) fun _ => Sound M :=
  .traced ((DataType.tracedNamed_documented true name definition).mono h) fun t ht =>
    register_meets (DataType.tracedNamed_isBuilt true name definition t ht)
      (fun hm => h (DataType.misfit_of_tracedNamed ht hm)) _

theorem applyInheritance_meets : Meets M (Sound M) applyInheritance fun _ _ => True := by
  intro r hr
  have hfault := applyInheritance_documented hr.wellFormed
  unfold Change.result
  cases hout : (applyInheritance r).outcome with
  | error f => exact hfault.mono hr.misfit f hout
  | ok u => exact True.intro

end Registry

/-! ## Definitions of APIs -/

namespace Api

open Edit (Meets)

inductive DeclaresType (entries : Mapping) : Value → Prop
  | type {types : Mapping} {e : Value × Value} (h : entries.field "types" = .map types)
      (he : e ∈ types) : DeclaresType entries e.2
  | schema {schemas : Mapping} {e : Value × Value} (h : entries.field "schemas" = .map schemas)
      (he : e ∈ schemas) : DeclaresType entries e.2
  | collected {collections : List Value} {schemas : Mapping} {e : Value × Value}
      (h : entries.field "schemas" = .list collections) (hc : .map schemas ∈ collections)
      (he : e ∈ schemas) : DeclaresType entries e.2

/-- Whether something in the definition of an API has a shape that it is not checked for. -/
inductive Misshapen (entries : Mapping) : Prop
  | protocols (h : (entries.field "protocols").NoCollection)
  | baseUri (h : ∀ p, Protocol.ofBaseUri (entries.field "baseUri") ≠ .ok p)
  | documentation {items : List Value} {own : Mapping} {title : Value}
      (hitems : entries.field "documentation" = .list items) (hown : .map own ∈ items)
      (ht : own.field? "title" = some title) (h : title.isKey = false)
  | types (h : (entries.field "types").NoMapping)
  | type {definition : Value} (hd : DeclaresType entries definition) (h : Misfit definition)
  | baseUriParameters (h : Parameters.Misshapen (entries.field "baseUriParameters"))
  | copied {s : String} (hs : s ∈ ["traits", "resourceTypes", "uses"])
      (h : (entries.field s).NoPairs)
  | annotationTypes (h : (entries.field "annotationTypes").Misshapen fun types => ∃ e ∈ types,
      AnnotationType.Misshapen e.1 e.2)
  | securitySchemes (h : (entries.field "securitySchemes").Misshapen fun schemes =>
      ∃ e ∈ schemes, ∃ d, e.2.optionalEntries = .ok d ∧ SecurityScheme.Misshapen e.1 d)
  | securedBy (h : SecuritySchemes.Misshapen (entries.field "securedBy"))
  | resource {own : Mapping} {e : String × Value} (he : e ∈ resourceEntries entries)
      (hown : e.2.optionalEntries = .ok own)
      (h : Resource.Misshapen (entries.field "mediaType") own)

variable {entries : Mapping} {M : Prop}

def TypesSound (M : Prop) (a : Api) : Prop := a.types.Sound M

/-- Whether an API has sound types and its usual media type from some entries. -/
structure Ready (entries : Mapping) (a : Api) : Prop where
  types : a.types.Sound (Misshapen entries)
  mediaType : a.mediaType = entries.field "mediaType"

theorem whenPresent_meets {P : Api → Prop} {v : Value} {f : Value → Edit Api Unit}
    (h : Meets M P (f v) fun _ => P) : Meets M P (whenPresent v f) fun _ => P := by
  unfold whenPresent
  split
  · exact .pure fun _ => id
  · exact h

/-! ### What an API says about itself -/

theorem addProtocol_meets (v : Value) :
    Meets M (TypesSound M) (addProtocol v) fun _ => TypesSound M := by
  refine .except ?_ fun p _ => .modify fun a ha => ?_
  · unfold Protocol.ofValue
    split
    · exact FailsOnly.ok _
    · exact .fault rfl
  · split
    · exact ha
    · exact ha

theorem scheme_faults (s : String) : FailsOnly Fault.OfShape (Uri.scheme s) := by
  unfold Uri.scheme
  dsimp only
  split
  · exact FailsOnly.ok _
  · exact FailsOnly.error_iff.2 .badValue

theorem ofBaseUri_documented (uri : Value) :
    DocumentedUnless (∀ p, Protocol.ofBaseUri uri ≠ .ok p) (Protocol.ofBaseUri uri) := by
  refine .of_shape ?_
  unfold Protocol.ofBaseUri
  split
  · exact FailsOnly.error_iff.2 .wrongKind
  · split
    · exact FailsOnly.ok _
    · split
      · exact .bind (scheme_faults _) fun _ => FailsOnly.ok _
      · split
        · exact .bind (scheme_faults _) fun _ => FailsOnly.ok _
        · exact FailsOnly.error_iff.2 .undecodable
      · exact FailsOnly.error_iff.2 .notMapping

theorem setBaseUri_meets (uri : Value) (h : (∀ p, Protocol.ofBaseUri uri ≠ .ok p) → M) :
    Meets M (TypesSound M) (setBaseUri uri) fun _ => TypesSound M := by
  refine .keep (.modify fun a ha => ha) fun _ => .get fun a ha => ?_
  split
  · refine .except ((ofBaseUri_documented uri).mono h) fun p _ => ?_
    split
    · exact .modify fun s hs => hs ▸ ha
    · exact .pure fun s hs => hs ▸ ha
  · exact .pure fun s hs => hs ▸ ha

theorem readDocumentation_documented (v : Value) :
    DocumentedUnless (∃ items own title, v = .list items ∧ .map own ∈ items ∧
      Mapping.field? own "title" = some title ∧ title.isKey = false) (readDocumentation v) := by
  unfold readDocumentation
  split
  · exact FailsOnly.ok _
  · exact FailsOnly.ok _
  · next items =>
      refine .bind (.mapM fun item hitem => ?_) fun _ _ => FailsOnly.ok _
      unfold documentationItem
      split
      · next own =>
          split
          · next title ht =>
              cases hkey : title.isKey with
              | true => exact FailsOnly.ok _
              | false => exact .shape .wrongKind ⟨items, own, title, rfl, hitem, ht, hkey⟩
          · exact .fault rfl
      · exact .fault rfl
  · exact .fault rfl

theorem describe_meets (entries : Mapping) :
    Meets (Misshapen entries) (TypesSound (Misshapen entries)) (describe entries)
      fun _ => Ready entries := by
  refine .keep (.modify fun a ha => ha) fun _ => ?_
  refine .except ((Value.optionalElements_documented _).mono .protocols) fun protocols _ => ?_
  refine .keep (.forEach fun v _ => addProtocol_meets v) fun _ => ?_
  refine .keep (whenPresent_meets (setBaseUri_meets _ .baseUri)) fun _ => ?_
  refine .except ((readDocumentation_documented _).mono ?_) fun documentation _ => ?_
  · rintro ⟨items, own, title, hitems, hown, ht, hkey⟩
    exact .documentation hitems hown ht hkey
  · exact .modify fun a ha => ⟨ha, rfl⟩

/-! ### What an API declares -/

theorem onTypes_meets {x : Edit Registry Unit}
    (h : Meets (Misshapen entries) (Registry.Sound (Misshapen entries)) x
      fun _ => Registry.Sound (Misshapen entries)) :
    Meets (Misshapen entries) (Ready entries) (onTypes x) fun _ => Ready entries := by
  refine .onPart fun a ha => ?_
  rintro _ rfl
  have hx := h a.types ha.types
  rcases hrun : (x a.types).result with ⟨types, f | u⟩
  · rwa [hrun] at hx
  · rw [hrun] at hx
    exact ⟨hx, ha.mediaType⟩

theorem addSchema_meets {name schema : Value} (h : DeclaresType entries schema) :
    Meets (Misshapen entries) (Ready entries) (addSchema name schema)
      fun _ => Ready entries := by
  have hadd : Meets (Misshapen entries) (Ready entries) (do
      Edit.modify fun a => { a with schemaCollections := a.schemaCollections.insert name schema }
      let t ← (DataType.tracedNamed true name schema : Edit Api DataType)
      onTypes (Registry.register t name.text?)) fun _ => Ready entries := by
    refine .keep (.modify fun a ha => ⟨ha.types, ha.mediaType⟩) fun _ => ?_
    have hfault := DataType.tracedNamed_documented true name schema
    refine .traced (hfault.mono (.type h)) fun t ht => ?_
    refine onTypes_meets (Registry.register_meets ?_ (fun hm => ?_) _)
    · exact DataType.tracedNamed_isBuilt true name schema t ht
    · exact .type h (DataType.misfit_of_tracedNamed ht hm)
  unfold addSchema
  split
  · exact hadd
  · exact hadd
  · exact .fail rfl

theorem addSchemaCollection_meets {v : Value}
    (h : ∀ schemas, v = .map schemas → ∀ e ∈ schemas, DeclaresType entries e.2) :
    Meets (Misshapen entries) (Ready entries) (addSchemaCollection v) fun _ => Ready entries := by
  unfold addSchemaCollection
  split
  · exact .forEach fun e he => addSchema_meets (h _ rfl e he)
  · exact .fail rfl

theorem addSchemas_meets :
    Meets (Misshapen entries) (Ready entries) (addSchemas (entries.field "schemas"))
      fun _ => Ready entries := by
  unfold addSchemas
  split
  · exact addSchemaCollection_meets fun _ hv e he => .schema hv he
  · next collections hcollections =>
      refine .forEach fun v hv => addSchemaCollection_meets fun schemas hmap e he => ?_
      exact .collected hcollections (hmap ▸ hv) he
  · exact .fail rfl

theorem declareTypes_meets (entries : Mapping) :
    Meets (Misshapen entries) (Ready entries) (declareTypes entries) fun _ => Ready entries := by
  refine .keep (whenPresent_meets addSchemas_meets) fun _ => ?_
  refine .except ((Value.optionalEntries_documented _).mono .types) fun types htypes => ?_
  refine .keep (onTypes_meets (.forEach fun e he => Registry.declare_meets fun h => ?_)) fun _ => ?_
  · exact .type (.type (Value.eq_map_of_optionalEntries htypes he) he) h
  · refine .get fun a ha => ?_
    refine .traced ((Parameter.ofOptional_documented _ true _).mono .baseUriParameters) ?_
    exact fun base _ => .modify fun s hs => hs ▸ ⟨ha.types, ha.mediaType⟩

theorem optionalCopy_documented {s : String} (hs : s ∈ ["traits", "resourceTypes", "uses"]) :
    DocumentedUnless (Misshapen entries) (entries.field s).optionalCopy :=
  (Value.optionalCopy_documented _).mono (.copied hs)

theorem keepDeclared_meets (entries : Mapping) :
    Meets (Misshapen entries) (Ready entries) (keepDeclared entries) fun _ => Ready entries :=
  .except (optionalCopy_documented (by decide)) fun _ _ =>
    .except (optionalCopy_documented (by decide)) fun _ _ =>
      .modify fun _ ha => ⟨ha.types, ha.mediaType⟩

theorem readAnnotationTypes_documented (registry : Registry) (v : Value) :
    (readAnnotationTypes registry v).DocumentedUnless (v.Misshapen fun types => ∃ e ∈ types,
      AnnotationType.Misshapen e.1 e.2) :=
  Value.Misshapen.records (AnnotationType.ofDefinition_documented (some registry)) v

theorem readSecuritySchemes_documented (registry : Registry) (v : Value) :
    (readSecuritySchemes registry v).DocumentedUnless (v.Misshapen fun schemes => ∃ e ∈ schemes,
      ∃ d, e.2.optionalEntries = .ok d ∧ SecurityScheme.Misshapen e.1 d) :=
  Value.Misshapen.records (SecurityScheme.ofDefinition_documented (some registry)) v

theorem declareUses_meets (entries : Mapping) :
    Meets (Misshapen entries) (Ready entries) (declareUses entries) fun _ => Ready entries := by
  refine .get fun a ha => ?_
  refine .traced ((readAnnotationTypes_documented _ _).mono .annotationTypes)
    fun annotationTypes _ => ?_
  refine .traced ((readSecuritySchemes_documented _ _).mono .securitySchemes) fun schemes _ => ?_
  refine .except ?_ fun securedBy _ => ?_
  · split
    · exact FailsOnly.ok _
    · exact (SecuritySchemes.resolve_documented schemes _).mono .securedBy
  refine .except (optionalCopy_documented (by decide)) fun uses _ => ?_
  refine .except (Annotations.ofEntries_documented _ _ entries) fun annotations _ => ?_
  exact .modify fun s hs => hs ▸ ⟨ha.types, ha.mediaType⟩

/-! ### The resources of an API -/

/-- Applying inheritance does not touch the usual media type. -/
theorem applyInheritance_meets (entries : Mapping) :
    Meets (Misshapen entries) (Ready entries) (onTypes Registry.applyInheritance)
      fun _ a => a.mediaType = entries.field "mediaType" := by
  refine .onPart fun a ha => ?_
  rintro _ rfl
  have happlied := Registry.applyInheritance_meets a.types ha.types
  rcases hrun : (Registry.applyInheritance a.types).result with ⟨types, f | u⟩
  · rwa [hrun] at happlied
  · exact ha.mediaType

theorem addResources_meets (entries : Mapping) :
    Meets (Misshapen entries) (fun a => a.mediaType = entries.field "mediaType")
      (addResources entries) fun _ _ => True := by
  refine .get fun a ha => .bind (.mapM fun e he => ?_) fun _ => .modify fun _ _ => True.intro
  refine .traced ?_ fun r _ => .pure fun _ => id
  refine (Resource.ofDefinition_documented (d := a.toDeclarations) (.text e.1) e.2).mono ?_
  rintro ⟨own, hown, h⟩
  exact .resource he hown (ha ▸ h)

theorem addEntries_meets (entries : Mapping) :
    Meets (Misshapen entries) (TypesSound (Misshapen entries)) (addEntries entries)
      fun _ _ => True := by
  -- sound types are needed until inheritance is applied, the usual media type until the end
  refine (describe_meets entries).bind fun _ => ?_
  refine .keep (declareTypes_meets entries) fun _ => ?_
  refine .keep (keepDeclared_meets entries) fun _ => ?_
  refine .keep (declareUses_meets entries) fun _ => ?_
  refine (applyInheritance_meets entries).bind fun _ => ?_
  refine (addResources_meets entries).bind fun _ => .get fun a _ => ?_
  exact fun _ _ => True.intro

/-- A definition is accepted, or refused with a documented fault, unless it is misshapen. -/
theorem ofDefinition_documented (title : String) (entries : Mapping) (registry : Registry) :
    DocumentedUnless (Misshapen entries)
      (ofDefinition (.text title) (.map entries) registry).outcome := by
  rw [ofDefinition_map]
  split
  · exact .fault rfl
  · refine .bind (FailsOnly.ok title) fun text _ => ?_
    have hsound : TypesSound (Misshapen entries) { ofTitle text with types := [] } := .nil
    exact .map ((addEntries_meets entries).documented hsound) _

end Api

/-! ## Texts -/

namespace Document

theorem header_documented (line : String) : DocumentedUnless False (Header.ofLine line) := by
  unfold Header.ofLine
  split
  · exact .fault rfl
  · refine .bind ?_ fun version _ => ?_
    · unfold Version.ofText
      split_ifs
      · exact FailsOnly.ok _
      · exact FailsOnly.ok _
      · exact .fault rfl
    · split
      · exact FailsOnly.ok _
      · exact FailsOnly.ok _

theorem checkFragment_documented (header : Header) :
    DocumentedUnless False (checkFragment header) := by
  unfold checkFragment
  split
  · exact FailsOnly.ok _
  · exact FailsOnly.ok _
  · exact .fault rfl

theorem ofText_fault {text : String} {f : Fault} (h : ofText text = .error f) :
    f.isOfParsing = true ∨ Yaml.read text = .error f := by
  rcases Except.bind_eq_error_iff.1 h with hheader | ⟨header, -, h⟩
  · exact .inl ((header_documented _).isOfParsing hheader)
  rcases Except.bind_eq_error_iff.1 h with hfragment | ⟨_, -, h⟩
  · exact .inl ((checkFragment_documented header).isOfParsing hfragment)
  rcases Except.bind_eq_error_iff.1 h with hread | ⟨v, -, h⟩
  · exact .inr hread
  left
  split at h
  · dsimp only at h
    split at h
    · cases h
      rfl
    · cases h
  · cases h
    rfl

end Document

namespace Api

/-- A text that is not parsed is refused with a documented fault of parsing, with the fault of its
decoding, or with one of the few that say that a shape is wrong; for the last, the document is
misshapen where nothing looks at the shape first. -/
theorem parse_faults {text : String} {f : Fault} (h : (ofText text).outcome = .error f) :
    f.isOfParsing = true ∨ Yaml.read text = .error f ∨
      f.OfShape ∧ ∃ d, Document.ofText text = .ok d ∧ Misshapen d.entries := by
  unfold ofText at h
  rw [Traced.outcome_bind] at h
  rcases Except.bind_eq_error_iff.1 h with hdocument | ⟨d, hd, h⟩
  · have hdocument : Document.ofText text = .error f := hdocument
    exact (Document.ofText_fault hdocument).imp_right .inl
  · have hfault := ofDefinition_documented d.title d.entries [] f (Except.map_eq_error_iff.1 h)
    exact hfault.imp_right fun hf => .inr ⟨hf.1, d, hd, hf.2⟩

/-! ### Misshapen documents -/

def listOfTypes : String := "#%RAML 1.0\ntitle: T\ntypes: [x]\n"

/-- Documents that can be decoded, each of them misshapen in one place: a list of types, a response
without a number, a list of usual media types, an empty name and a broken address. -/
def misshapenTexts : List String :=
  [listOfTypes,
    "#%RAML 1.0\ntitle: T\n/a:\n  get:\n    responses:\n      default:\n",
    "#%RAML 1.0\ntitle: T\nmediaType: [application/json]\n/a:\n  post:\n    body: string\n",
    "#%RAML 1.0\ntitle: T\n/a:\n  displayName:\n",
    "#%RAML 1.0\ntitle: T\nbaseUri: http://[a\n"]

theorem misshapenTexts_fault {text : String} (h : text ∈ misshapenTexts) :
    ∃ v f, Yaml.read text = .ok v ∧ (ofText text).outcome = .error f ∧ f.isDocumented = false := by
  have hall : ∀ text ∈ misshapenTexts, (Yaml.read text).toOption.isSome ∧
      ((ofText text).outcome.map fun _ => ()).mapError (·.isDocumented) = .error false := by
    decide +kernel
  obtain ⟨hread, hrun⟩ := hall text h
  cases hout : (ofText text).outcome with
  | ok a => simp [hout, Except.mapError, Except.map] at hrun
  | error f =>
      rw [hout] at hrun
      exact ⟨_, f, Except.eq_ok_get hread, rfl, Except.error.inj hrun⟩

/-- The fault of a list of types is one of a wrong shape, and the document is misshapen indeed. -/
theorem parse_faults_listOfTypes : ∃ f d, (ofText listOfTypes).outcome = .error f ∧ f.OfShape ∧
    Document.ofText listOfTypes = .ok d ∧ Misshapen d.entries := by
  obtain ⟨v, f, hread, hout, hundocumented⟩ := misshapenTexts_fault List.mem_cons_self
  rcases parse_faults hout with hparsing | hundecoded | ⟨hshape, d, hd, hmisshapen⟩
  · simp [Fault.isOfParsing, hundocumented] at hparsing
  · cases hread.symm.trans hundecoded
  · exact ⟨f, d, hout, hshape, hd, hmisshapen⟩

/-- Not every text that can be decoded is parsed or refused with a documented fault. -/
theorem not_every_fault_documented : ¬ ∀ text v, Yaml.read text = .ok v →
    (∃ a, (ofText text).outcome = .ok a) ∨
      ∃ f, (ofText text).outcome = .error f ∧ f.isDocumented = true := by
  intro hclaim
  have hmem : listOfTypes ∈ misshapenTexts := List.mem_cons_self
  obtain ⟨v, f, hread, hout, hundocumented⟩ := misshapenTexts_fault hmem
  rcases hclaim _ v hread with ⟨a, ha⟩ | ⟨f', hf', hdocumented⟩
  · cases hout.symm.trans ha
  · obtain rfl := Except.error.inj (hout.symm.trans hf')
    cases hdocumented.symm.trans hundocumented

end Api

end Raml
