import Raml.Proofs.Resource.AnnotationUses

/-! # Definitions without their annotations

A definition without its annotations is read as the whole one is: the two run
alongside each other, through the same operations but for the annotations
themselves, which only the whole definition can be refused for. So a definition
that is acceptable but for its annotations is accepted exactly if they all may
be used, and else refused for one of them.
-/

namespace Raml

/-! ## Running alongside -/

section Mirroring

variable {α β γ δ σ : Type}

/-- How a run ends beside one that may not be refused for misuse: alike, or with a misuse where the
other one succeeds. -/
def Except.Mirrors (misuse : Fault → Prop) (R : α → β → Prop) :
    Except Fault α → Except Fault β → Prop
  | .ok a, .ok b => R a b
  | .ok _, .error _ => False
  | .error f, .ok _ => misuse f
  | .error _, .error _ => True

namespace Traced

variable {misuse : Fault → Prop} {R : α → β → Prop} {S : γ → δ → Prop}

def Mirrors (misuse : Fault → Prop) (R : α → β → Prop) (x : Traced α) (y : Traced β) : Prop :=
  Except.Mirrors misuse R x.outcome y.outcome

theorem Mirrors.pure {a : α} {b : β} (h : R a b) :
    Mirrors misuse R (Pure.pure a) (Pure.pure b) := h

theorem Mirrors.same {R : α → α → Prop} (h : ∀ a, R a a) (x : Traced α) : Mirrors misuse R x x := by
  unfold Mirrors
  cases x.outcome with
  | error e => exact True.intro
  | ok a => exact h a

theorem Mirrors.bind {x : Traced α} {y : Traced β} {f : α → Traced γ} {g : β → Traced δ}
    (hxy : Mirrors misuse R x y) (hfg : ∀ a b, R a b → Mirrors misuse S (f a) (g b)) :
    Mirrors misuse S (x >>= f) (y >>= g) := by
  unfold Mirrors at hxy ⊢
  rw [outcome_bind, outcome_bind]
  cases hx : x.outcome with
  | error e =>
      cases hy : y.outcome with
      | error e' => exact True.intro
      | ok b =>
          rw [hx, hy] at hxy
          simp only [Bind.bind, Except.bind]
          cases (g b).outcome
          · exact True.intro
          · exact hxy
  | ok a =>
      cases hy : y.outcome with
      | error e' =>
          rw [hx, hy] at hxy
          exact hxy.elim
      | ok b =>
          rw [hx, hy] at hxy
          exact hfg a b hxy

theorem Mirrors.ite {c : Prop} [Decidable c] {x x' : Traced α} {y y' : Traced β}
    (h : Mirrors misuse R x y) (h' : Mirrors misuse R x' y') :
    Mirrors misuse R (if c then x else x') (if c then y else y') := by
  split
  · exact h
  · exact h'

theorem Mirrors.after {x : Traced α} {f : α → Traced γ} {g : α → Traced δ}
    (h : ∀ a, Mirrors misuse S (f a) (g a)) : Mirrors misuse S (x >>= f) (x >>= g) :=
  (Mirrors.same (R := Eq) (fun _ => rfl) x).bind fun a _ hab => hab ▸ h a

end Traced

namespace Edit

variable {P : σ → σ → Prop} {misuse : Fault → σ → Prop} {Q : α → β → σ → σ → Prop}
  {R : γ → δ → σ → σ → Prop}

/-- Whether an edit mirrors another from related states. Whether a fault is a misuse is told by the
state that the other one leaves. -/
def Mirrors (P : σ → σ → Prop) (misuse : Fault → σ → Prop) (x : Edit σ α) (y : Edit σ β)
    (Q : α → β → σ → σ → Prop) : Prop :=
  ∀ s t, P s t → ∀ s' t' o p, (x s).result = (s', o) → (y t).result = (t', p) →
    Except.Mirrors (misuse · t') (Q · · s' t') o p

theorem Mirrors.pure {a : α} {b : β} (h : ∀ s t, P s t → Q a b s t) :
    Mirrors P misuse (Pure.pure a) (Pure.pure b) Q := by
  rintro s t hst _ _ _ _ ⟨⟩ ⟨⟩
  exact h s t hst

theorem Mirrors.modify {f g : σ → σ} {Q : Unit → Unit → σ → σ → Prop}
    (h : ∀ s t, P s t → Q () () (f s) (g t)) :
    Mirrors P misuse (Edit.modify f) (Edit.modify g) Q := by
  rintro s t hst _ _ _ _ ⟨⟩ ⟨⟩
  exact h s t hst

/-- Operations that do not touch the state. -/
theorem Mirrors.lift {misuse₀ : Fault → Prop} {T : α → β → Prop} {x : Traced α} {y : Traced β}
    (h : Traced.Mirrors misuse₀ T x y) :
    Mirrors P (fun e t => misuse₀ e ∧ ∃ s, P s t) (x : Edit σ α) (y : Edit σ β)
      fun a b s t => T a b ∧ P s t := by
  rintro s t hst _ _ _ _ ⟨⟩ ⟨⟩
  show Except.Mirrors _ _ x.outcome y.outcome
  unfold Traced.Mirrors at h
  cases hx : x.outcome with
  | error e =>
      cases hy : y.outcome with
      | error e' => exact True.intro
      | ok b =>
          rw [hx, hy] at h
          exact ⟨h, s, hst⟩
  | ok a =>
      cases hy : y.outcome with
      | error e' =>
          rw [hx, hy] at h
          exact h.elim
      | ok b =>
          rw [hx, hy] at h
          exact ⟨h, hst⟩

/-- What comes after may not change what is a misuse. -/
theorem Mirrors.bind {M : Fault → σ → Prop} {x : Edit σ α} {y : Edit σ β}
    {f : α → Edit σ γ} {g : β → Edit σ δ} (hxy : Mirrors P M x y Q)
    (hfg : ∀ a b, Mirrors (Q a b) misuse (f a) (g b) R)
    (hmisuse : ∀ e b, Ensures (M e) (g b) fun _ => misuse e) :
    Mirrors P misuse (x >>= f) (y >>= g) R := by
  intro s t hst s' t' o p hs ht
  rcases hx : (x s).result with ⟨s₁, o₁⟩
  rcases hy : (y t).result with ⟨t₁, p₁⟩
  have hfirst := hxy s t hst s₁ t₁ o₁ p₁ hx hy
  cases o₁ with
  | error e =>
      rw [result_bind_error hx] at hs
      obtain ⟨rfl, rfl⟩ := Prod.mk.inj hs
      cases p₁ with
      | error e' =>
          rw [result_bind_error hy] at ht
          obtain ⟨rfl, rfl⟩ := Prod.mk.inj ht
          exact True.intro
      | ok b =>
          rw [result_bind_ok hy] at ht
          cases p with
          | error e' => exact True.intro
          | ok d => exact hmisuse e b t₁ hfirst d t' ht
  | ok a =>
      cases p₁ with
      | error e' => exact hfirst.elim
      | ok b =>
          rw [result_bind_ok hx] at hs
          rw [result_bind_ok hy] at ht
          exact hfg a b s₁ t₁ hfirst s' t' o p hs ht

theorem Mirrors.after {x : Edit σ α} {f g : α → Edit σ γ} {R : γ → γ → σ → σ → Prop}
    (h : ∀ a, Mirrors Eq misuse (f a) (g a) R) : Mirrors Eq misuse (x >>= f) (x >>= g) R := by
  have hsame : Mirrors Eq (fun _ _ => False) x x fun a b s t => a = b ∧ s = t := by
    rintro s _ rfl s' t' o p hs ht
    obtain ⟨rfl, rfl⟩ := Prod.mk.inj (hs.symm.trans ht)
    cases o
    · exact True.intro
    · exact ⟨rfl, rfl⟩
  refine hsame.bind (fun a b => ?_) fun e b _ hs => hs.elim
  rintro s t ⟨rfl, hst⟩
  exact h a s t hst

theorem Mirrors.get {f g : σ → Edit σ γ} {R : γ → γ → σ → σ → Prop}
    (h : ∀ s t, P s t → Mirrors (fun s' t' => s' = s ∧ t' = t) misuse (f s) (g t) R) :
    Mirrors P misuse (Edit.get >>= f) (Edit.get >>= g) R := by
  intro s t hst s' t' o p hs ht
  rw [result_bind_ok (result_get s)] at hs
  rw [result_bind_ok (result_get t)] at ht
  exact h s t hst s t ⟨rfl, rfl⟩ s' t' o p hs ht

theorem Mirrors.mapM {ι : Type} {f g : ι → Edit σ γ} {xs : List ι}
    (h : ∀ x ∈ xs, Mirrors P misuse (f x) (g x) fun _ _ => P)
    (hkeeps : ∀ e x, Ensures (misuse e) (g x) fun _ => misuse e) :
    Mirrors P misuse (xs.mapM f) (xs.mapM g) fun _ _ => P := by
  induction xs with
  | nil => exact .pure fun _ _ => id
  | cons x rest ih =>
      rw [List.mapM_cons, List.mapM_cons]
      refine (h x (by simp)).bind (fun a b => ?_) fun e b => ?_
      · have hrest := ih fun x' hx' => h x' (List.mem_cons_of_mem _ hx')
        refine hrest.bind (fun as bs => .pure fun _ _ => id) fun e bs => ?_
        exact .pure fun _ => id
      · refine (Ensures.mapM (Q := fun _ => True) fun x _ => ?_).bind fun bs => .pure fun _ h => h.2
        exact fun t ht d t' hrun => ⟨trivial, hkeeps e x t ht d t' hrun⟩

end Edit

end Mirroring

/-! ## Leaving annotations out -/

def Annotations.isUse (key : Value) : Bool :=
  Annotation.nameOf? key.shown |>.isSome

/-- The entries of a node that are no annotations, with what they declare changed. -/
def Mapping.unannotated (below : Value → Value → Value) (entries : Mapping) : Mapping :=
  entries.filterMap fun e =>
    if Annotations.isUse e.1 then none else some (e.1, below e.1 e.2)

def Method.unannotated : Value → Value
  | .map entries => .map (Mapping.unannotated (fun _ v => v) entries)
  | v => v

namespace Resource

mutual

/-- A definition of a resource without its annotations and those of what it declares. -/
def unannotated : Value → Value
  | .map entries => .map (unannotatedAll entries)
  | v => v
termination_by structural v => v

def unannotatedAll : List (Value × Value) → List (Value × Value)
  | [] => []
  | e :: rest =>
      match unannotatedOne e with
      | some e => e :: unannotatedAll rest
      | none => unannotatedAll rest
termination_by structural es => es

/-- An entry of a resource without annotations; none if it is one. -/
def unannotatedOne : Value × Value → Option (Value × Value)
  | (k, v) =>
      if Annotations.isUse k then none
      else if Text.startsIn '/' k.shown then some (k, unannotated v)
      else if isVerb k.shown then some (k, Method.unannotated v)
      else some (k, v)
termination_by structural e => e

end

/-- What a resource declares under a key, without annotations. -/
def unannotatedBelow (k v : Value) : Value :=
  if Text.startsIn '/' k.shown then unannotated v
  else if isVerb k.shown then Method.unannotated v
  else v

theorem unannotated_map (entries : Mapping) :
    unannotated (.map entries) = .map (Mapping.unannotated unannotatedBelow entries) := by
  rw [unannotated]
  congr 1
  induction entries with
  | nil => rfl
  | cons e rest ih =>
      obtain ⟨k, v⟩ := e
      rw [Mapping.unannotated] at ih ⊢
      rw [unannotatedAll, unannotatedOne, List.filterMap_cons, unannotatedBelow]
      dsimp only
      split_ifs <;> simp only [ih]

end Resource

namespace Api

/-- What an API declares under a key, without annotations. -/
def unannotatedBelow (k v : Value) : Value :=
  if Text.startsIn '/' k.shown then Resource.unannotated v else v

/-- A definition of an API without its annotations and those of what it declares. -/
def unannotated : Value → Value
  | .map entries => .map (Mapping.unannotated unannotatedBelow entries)
  | v => v

end Api

namespace Mapping

variable {below : Value → Value → Value}

theorem field?_unannotated {s : String} (hname : Annotation.nameOf? s = none)
    (hbelow : ∀ v, below (.text s) v = v) (entries : Mapping) :
    (entries.unannotated below).field? s = entries.field? s := by
  induction entries with
  | nil => rfl
  | cons e rest ih =>
      obtain ⟨k, v⟩ := e
      simp only [field?, unannotated] at ih ⊢
      rw [List.filterMap_cons]
      by_cases hkey : k = .text s
      · subst hkey
        simp [Annotations.isUse, Value.shown, hname, hbelow, Table.get?]
      · have hne : (k == .text s) = false := by
          rw [Bool.eq_false_iff]
          exact fun h => hkey ((Value.beq_text k s).1 h)
        split_ifs
        · simp [Table.get?, hne, ih]
        · simp [Table.get?, hne, ih]

theorem ofEntries_unannotated (types : AnnotationTypes) (target : AnnotationTarget)
    (entries : Mapping) :
    Annotations.ofEntries types target (entries.unannotated below) = .ok [] := by
  have hnone : Annotations.named (entries.unannotated below) = [] := by
    rw [Annotations.named, List.filterMap_eq_nil_iff]
    intro e he
    obtain ⟨e', -, he'⟩ := List.mem_filterMap.1 he
    split at he'
    · cases he'
    · next huse =>
        obtain rfl := Option.some.inj he'
        simpa [Annotations.isUse] using huse
  simp only [Annotations.ofEntries]
  rw [Annotations.named] at hnone
  rw [hnone]
  rfl

/-- Entries are refused for annotations that may not be used, and for nothing else. -/
theorem ofEntries_mirrors {types : AnnotationTypes} {target : AnnotationTarget}
    {entries : Mapping} {misuse : Fault → Prop}
    (h : ∀ name f, entries.Annotate name → types.Refuse target name f → misuse f) :
    Traced.Mirrors misuse (fun _ _ => True)
      (.ofExcept (Annotations.ofEntries types target entries))
      (.ofExcept (Annotations.ofEntries types target (entries.unannotated below))) := by
  rw [ofEntries_unannotated]
  rcases Annotations.ofEntries_cases types target entries with
    ⟨_, hok, -, -⟩ | ⟨f, name, herror, hname, hf⟩
  · rw [hok]
    exact True.intro
  · rw [herror]
    exact h name f hname hf

end Mapping

/-! ## Methods and resources -/

namespace Method

variable {d : Declarations} {schemes : SecuritySchemes} {verb : String} {misuse : Fault → Prop}

theorem ofMapping_mirrors {entries : Mapping}
    (h : ∀ name f, entries.Annotate name → d.annotationTypes.Refuse .method name f → misuse f) :
    Traced.Mirrors misuse (fun _ _ => True) (ofDefinition d schemes verb (.map entries))
      (ofDefinition d schemes verb (.map (entries.unannotated fun _ v => v))) := by
  have hfield? : ∀ {s : String}, Annotation.nameOf? s = none →
      (entries.unannotated fun _ v => v).field? s = entries.field? s :=
    fun hname => Mapping.field?_unannotated hname (fun _ => rfl) entries
  have hfield : ∀ {s : String}, Annotation.nameOf? s = none →
      (entries.unannotated fun _ v => v).field s = entries.field s := fun hname => by
    rw [Mapping.field, hfield? hname, Mapping.field]
  have hsecured : secured d schemes (entries.unannotated fun _ v => v) =
      secured d schemes entries := by
    rw [secured, hfield? (by decide)]
    rfl
  have hread : read (Text.upper verb) (entries.unannotated fun _ v => v) =
      read (Text.upper verb) entries := by
    funext headers queryParameters protocols schemes
    rw [read, hfield (by decide), hfield (by decide)]
    rfl
  unfold ofDefinition
  rw [Resource.optionalEntries_map, Resource.optionalEntries_map]
  dsimp only
  rw [pure_bind, pure_bind, hread, hsecured]
  simp only [hfield (s := "headers") (by decide), hfield (s := "queryParameters") (by decide),
    hfield (s := "protocols") (by decide), hfield (s := "body") (by decide),
    hfield (s := "responses") (by decide)]
  refine .after fun headers => .after fun queryParameters => .after fun protocols => ?_
  refine .after fun m => .after fun schemes => (Mapping.ofEntries_mirrors h).bind fun _ _ _ => ?_
  split
  all_goals exact .after fun bodies => .after fun responses => .pure True.intro

theorem ofDefinition_mirrors {definition : Value}
    (h : ∀ entries name f, definition = .map entries → Mapping.Annotate entries name →
      d.annotationTypes.Refuse .method name f → misuse f) :
    Traced.Mirrors misuse (fun _ _ => True) (ofDefinition d schemes verb definition)
      (ofDefinition d schemes verb (unannotated definition)) := by
  cases definition with
  | map entries => exact ofMapping_mirrors fun name f => h entries name f rfl
  | _ => exact .same (fun _ => True.intro) _

end Method

theorem Annotations.isUse_spec {k : Value} (h : isUse k = true) :
    Text.startsIn '/' k.shown = false ∧ Resource.isVerb k.shown = false := by
  obtain ⟨name, hname⟩ := Option.isSome_iff_exists.1 h
  obtain ⟨rest, hchars⟩ : ∃ rest, k.shown.toList = '(' :: rest := by
    unfold Annotation.nameOf? at hname
    split at hname
    · next rest hchars => exact ⟨rest, hchars⟩
    · cases hname
  refine ⟨by simp [Text.startsIn, hchars], ?_⟩
  rw [Bool.eq_false_iff, Resource.isVerb, ne_eq, List.contains_iff_mem]
  have hverbs : ∀ verb ∈ Method.verbs, verb.toList.head? ≠ some '(' := by decide
  intro hmem
  refine hverbs _ hmem ?_
  have hupper : Text.upperChar '(' = ['('] := by decide
  simp [Text.upper, hchars, hupper]

namespace Resource

variable {d : Declarations} {misuse : Fault → Prop}

/-- Whether two resources hand on the same, but for annotations. -/
structure Alike (r s : Resource) : Prop where
  uri : r.uri = s.uri
  uriParameters : r.uriParameters = s.uriParameters
  securitySchemes : r.securitySchemes = s.securitySchemes

theorem field?_unannotated {s : String} (hname : Annotation.nameOf? s = none)
    (hslash : Text.startsIn '/' s = false) (hverb : isVerb s = false) (entries : Mapping) :
    (entries.unannotated unannotatedBelow).field? s = entries.field? s := by
  refine Mapping.field?_unannotated hname (fun v => ?_) entries
  simp [unannotatedBelow, Value.shown, hslash, hverb]

theorem head_mirrors {inherited inherited' : Inherited}
    (hinherited : inherited.uriParameters = inherited'.uriParameters) {uri relativeUri : String}
    {entries : Mapping} (h : ∀ name f, entries.Annotate name →
      d.annotationTypes.Refuse .resource name f → misuse f) :
    Traced.Mirrors misuse Alike (head d inherited uri relativeUri entries)
      (head d inherited' uri relativeUri (entries.unannotated unannotatedBelow)) := by
  have hfield? : ∀ {s : String}, Annotation.nameOf? s = none → Text.startsIn '/' s = false →
      isVerb s = false → (entries.unannotated unannotatedBelow).field? s = entries.field? s :=
    fun hname hslash hverb => field?_unannotated hname hslash hverb entries
  have hfield : ∀ {s : String}, Annotation.nameOf? s = none → Text.startsIn '/' s = false →
      isVerb s = false → (entries.unannotated unannotatedBelow).field s = entries.field s :=
    fun hname hslash hverb => by
      rw [Mapping.field, hfield? hname hslash hverb, Mapping.field]
  have hread : Traced.Mirrors misuse Alike
      (.ofExcept ((read d inherited uri relativeUri entries).toExcept .resource))
      (.ofExcept ((read d inherited' uri relativeUri
        (entries.unannotated unannotatedBelow)).toExcept .resource)) := by
    rw [read, read, hfield? (by decide) (by decide) (by decide),
      hfield (by decide) (by decide) (by decide)]
    generalize Field.given "display_name" _ _ = displayName
    generalize Field.given "description" _ _ = description
    cases displayName <;> cases description
    · exact ⟨rfl, hinherited, rfl⟩
    all_goals exact True.intro
  have hsecured : ∀ outer, Method.secured d outer (entries.unannotated unannotatedBelow) =
      Method.secured d outer entries := fun outer => by
    rw [Method.secured, hfield? (by decide) (by decide) (by decide)]
    rfl
  unfold head
  simp only [hsecured,
    hfield (s := "baseUriParameters") (by decide) (by decide) (by decide),
    hfield (s := "uriParameters") (by decide) (by decide) (by decide)]
  refine hread.bind fun r s hrs => .after fun base => .after fun own => ?_
  rw [hrs.securitySchemes]
  refine .after fun schemes => (Mapping.ofEntries_mirrors h).bind fun _ _ _ => .pure ?_
  exact ⟨hrs.uri, by rw [hrs.uriParameters], rfl⟩

/-- Whether each method and each nested resource among some entries is read as the one without
annotations. -/
structure EntriesMirror (d : Declarations) (misuse : Fault → Prop)
    (inherited inherited' : Inherited) (entries : Mapping) : Prop where
  nested : ∀ e ∈ nestedEntries entries, ∀ uri key,
    Traced.Mirrors misuse (fun _ _ => True) (build d inherited uri key e.2)
      (build d inherited' uri key (unannotated e.2))
  methods : ∀ e ∈ methodEntries entries, ∀ schemes verb,
    Traced.Mirrors misuse (fun _ _ => True) (Method.ofDefinition d schemes verb e.2)
      (Method.ofDefinition d schemes verb (Method.unannotated e.2))

variable {inherited inherited' : Inherited}

theorem EntriesMirror.tail {e : Value × Value} {rest : Mapping}
    (h : EntriesMirror d misuse inherited inherited' (e :: rest)) :
    EntriesMirror d misuse inherited inherited' rest where
  nested e' he' := h.nested e' ((List.sublist_cons_self e rest).filter _ |>.subset he')
  methods e' he' := h.methods e' ((List.sublist_cons_self e rest).filter _ |>.subset he')

/-- An entry that is no annotation adds the like to like resources. -/
theorem addOne_mirrors {k v : Value} {rest : Mapping}
    (h : EntriesMirror d misuse inherited inherited' ((k, v) :: rest)) {r s : Resource}
    (hrs : r.Alike s) :
    Traced.Mirrors misuse Alike (addOne d inherited r (k, v))
      (addOne d inherited' s (k, unannotatedBelow k v)) := by
  rw [addOne, addOne, unannotatedBelow]
  split
  · next hslash =>
      have hmem : (k, v) ∈ nestedEntries ((k, v) :: rest) := by
        simp [nestedEntries, hslash]
      rw [hrs.uri]
      refine (h.nested _ hmem _ _).bind fun _ _ _ => .pure ?_
      exact ⟨rfl, hrs.uriParameters, hrs.securitySchemes⟩
  · next hslash =>
      split
      · next hverb =>
          have hmem : (k, v) ∈ methodEntries ((k, v) :: rest) := by
            simp [methodEntries, hslash, hverb]
          rw [hrs.securitySchemes]
          refine (h.methods _ hmem _ _).bind fun _ _ _ => .pure ?_
          exact ⟨hrs.uri, hrs.uriParameters, rfl⟩
      · exact .pure hrs

/-- What annotations there are does not matter for methods and nested resources. -/
theorem addAll_mirrors {entries : Mapping}
    (h : EntriesMirror d misuse inherited inherited' entries) {r s : Resource} (hrs : r.Alike s) :
    Traced.Mirrors misuse Alike (addAll d inherited r entries)
      (addAll d inherited' s (entries.unannotated unannotatedBelow)) := by
  induction entries generalizing r s with
  | nil =>
      rw [addAll]
      exact .pure hrs
  | cons e rest ih =>
      obtain ⟨k, v⟩ := e
      rw [Mapping.unannotated, List.filterMap_cons]
      cases huse : Annotations.isUse k with
      | true =>
          -- an annotation is no method and no nested resource, so it is passed over either way
          obtain ⟨hslash, hverb⟩ := Annotations.isUse_spec huse
          have hskip : addOne d inherited r (k, v) = pure r := by
            simp [addOne, hslash, hverb]
          rw [addAll, hskip, pure_bind]
          exact ih h.tail hrs
      | false =>
          rw [addAll, if_neg (by simp), addAll]
          exact (addOne_mirrors h hrs).bind fun r' s' hrs' => ih h.tail hrs'

theorem build_plain {v : Value} (h : ∀ entries, v ≠ .map entries) {uri relativeUri : String} :
    build d inherited uri relativeUri v =
      if v.isEmpty then do
        let r ← head d inherited uri relativeUri []
        finished r
      else Traced.ofExcept (.error (.misplaced (.resource uri))) := by
  cases v with
  | map entries => exact absurd rfl (h entries)
  | _ => rfl

theorem unannotated_plain {v : Value} (h : ∀ entries, v ≠ .map entries) : unannotated v = v := by
  cases v with
  | map entries => exact absurd rfl (h entries)
  | _ => rfl

theorem finished_mirrors (r s : Resource) :
    Traced.Mirrors misuse (fun _ _ => True) r.finished s.finished := True.intro

/-- A definition is read as the one without annotations, unless it is refused for one that it
carries. -/
theorem build_mirrors {definition : Value} (h : ∀ target name f, Carries definition target name →
      d.annotationTypes.Refuse target name f → misuse f)
    (hinherited : inherited.uriParameters = inherited'.uriParameters) (uri relativeUri : String) :
    Traced.Mirrors misuse (fun _ _ => True) (build d inherited uri relativeUri definition)
      (build d inherited' uri relativeUri (unannotated definition)) := by
  -- by weight: nested definitions are found among the entries by their keys
  generalize hw : definition.weight = w
  induction w using Nat.strongRecOn
    generalizing definition inherited inherited' uri relativeUri with
  | ind w ih =>
      by_cases hmap : ∃ entries, definition = .map entries
      · obtain ⟨entries, rfl⟩ := hmap
        rw [unannotated_map, build, build]
        have hhead : Traced.Mirrors misuse Alike (head d inherited uri relativeUri entries)
            (head d inherited' uri relativeUri (Mapping.unannotated unannotatedBelow entries)) :=
          head_mirrors hinherited fun name f hname => h _ name f (.own hname)
        refine hhead.bind fun r s hrs => ?_
        have hentries : EntriesMirror d misuse (.ofResource r) (.ofResource s) entries := by
          refine ⟨fun e he uri key => ?_, fun e he schemes verb => ?_⟩
          · have hweight := Value.weight_lt_of_mem (List.mem_filter.1 he).1
            exact ih _ (hw ▸ hweight)
              (fun target name f hcarries => h target name f (.nested he hcarries))
              hrs.uriParameters uri key rfl
          · exact Method.ofDefinition_mirrors fun own name f hown hname =>
              h _ name f (.method he hown hname)
        exact (addAll_mirrors hentries hrs).bind fun r s _ => finished_mirrors r s
      · have hplain : ∀ entries, definition ≠ .map entries := fun entries he => hmap ⟨entries, he⟩
        have hhead : Traced.Mirrors misuse Alike (head d inherited uri relativeUri [])
            (head d inherited' uri relativeUri []) :=
          head_mirrors hinherited fun name f ⟨e, he, _⟩ => nomatch he
        rw [unannotated_plain hplain, build_plain hplain, build_plain hplain]
        refine .ite ?_ (.same (fun _ => True.intro) _)
        exact hhead.bind fun r s _ => finished_mirrors r s

theorem ofDefinition_mirrors {definition : Value} (h : ∀ target name f,
      Carries definition target name → d.annotationTypes.Refuse target name f → misuse f)
    (uri : Value) :
    Traced.Mirrors misuse (fun _ _ => True) (ofDefinition d uri definition)
      (ofDefinition d uri (unannotated definition)) := by
  unfold ofDefinition
  split
  · exact .ite (build_mirrors h rfl _ _) (.same (fun _ => True.intro) _)
  · exact .same (fun _ => True.intro) _

end Resource

/-! ## The whole API -/

namespace Edit

variable {σ α γ : Type} {P : σ → σ → Prop} {misuse : Fault → σ → Prop} {R : γ → γ → σ → σ → Prop}

/-- The same operation first, which does not touch the state. -/
theorem Mirrors.afterTraced {x : Traced α} {f g : α → Edit σ γ}
    (h : ∀ a, Mirrors P misuse (f a) (g a) R) :
    Mirrors P misuse ((x : Edit σ α) >>= f) ((x : Edit σ α) >>= g) R := by
  have hsame : Traced.Mirrors (fun _ => False) Eq x x := .same (fun _ => rfl) x
  refine (Mirrors.lift hsame).bind (fun a b => ?_) fun e b _ ht => ht.1.elim
  rintro s t ⟨rfl, hst⟩
  exact h a s t hst

theorem Mirrors.afterExcept {x : Except Fault α} {f g : α → Edit σ γ}
    (h : ∀ a, Mirrors P misuse (f a) (g a) R) :
    Mirrors P misuse ((x : Edit σ α) >>= f) ((x : Edit σ α) >>= g) R :=
  Mirrors.afterTraced (x := Traced.ofExcept x) h

end Edit

namespace Api

open Edit (Ensures Mirrors)

/-- Whether a fault refuses an annotation that some entries carry. -/
def Misuse (entries : Mapping) (f : Fault) (a : Api) : Prop :=
  ∃ target name, Carries (.map entries) target name ∧ a.annotationTypes.Refuse target name f

def DeclareAlike (a b : Api) : Prop := a.toDeclarations = b.toDeclarations

abbrev withoutUses (entries : Mapping) : Mapping := entries.unannotated unannotatedBelow

theorem field_withoutUses {s : String} (hname : Annotation.nameOf? s = none)
    (hslash : Text.startsIn '/' s = false) (entries : Mapping) :
    (withoutUses entries).field s = entries.field s := by
  have hfield? : (withoutUses entries).field? s = entries.field? s :=
    Mapping.field?_unannotated hname
      (fun v => by simp [unannotatedBelow, Value.shown, hslash]) entries
  rw [Mapping.field, hfield?, Mapping.field]

theorem describe_withoutUses (entries : Mapping) :
    describe (withoutUses entries) = describe entries := by
  simp only [describe, field_withoutUses (s := "description") (by decide) (by decide),
    field_withoutUses (s := "version") (by decide) (by decide),
    field_withoutUses (s := "protocols") (by decide) (by decide),
    field_withoutUses (s := "baseUri") (by decide) (by decide),
    field_withoutUses (s := "documentation") (by decide) (by decide),
    field_withoutUses (s := "mediaType") (by decide) (by decide)]

theorem declareTypes_withoutUses (entries : Mapping) :
    declareTypes (withoutUses entries) = declareTypes entries := by
  simp only [declareTypes, field_withoutUses (s := "schemas") (by decide) (by decide),
    field_withoutUses (s := "types") (by decide) (by decide),
    field_withoutUses (s := "baseUriParameters") (by decide) (by decide)]

theorem keepDeclared_withoutUses (entries : Mapping) :
    keepDeclared (withoutUses entries) = keepDeclared entries := by
  simp only [keepDeclared, field_withoutUses (s := "traits") (by decide) (by decide),
    field_withoutUses (s := "resourceTypes") (by decide) (by decide)]

theorem declareUses_mirrors (entries : Mapping) :
    Mirrors Eq (Misuse entries) (declareUses entries) (declareUses (withoutUses entries))
      fun _ _ => DeclareAlike := by
  unfold declareUses
  simp only [field_withoutUses (s := "annotationTypes") (by decide) (by decide),
    field_withoutUses (s := "securitySchemes") (by decide) (by decide),
    field_withoutUses (s := "securedBy") (by decide) (by decide),
    field_withoutUses (s := "uses") (by decide) (by decide)]
  refine .get fun a _ hsame => ?_
  subst hsame
  refine .afterTraced fun types => .afterTraced fun schemes => ?_
  refine .afterExcept fun securedBy => .afterExcept fun uses => ?_
  have hannotations : Traced.Mirrors
      (fun f => ∃ name, entries.Annotate name ∧ types.Refuse .api name f) (fun _ _ => True)
      (.ofExcept (Annotations.ofEntries types .api entries))
      (.ofExcept (Annotations.ofEntries types .api (withoutUses entries))) :=
    Mapping.ofEntries_mirrors fun name f hname hf => ⟨name, hname, hf⟩
  refine (Mirrors.lift hannotations).bind (fun _ _ => ?_) fun e _ => ?_
  · refine .modify fun s t hst => ?_
    obtain ⟨-, rfl, rfl⟩ := hst
    rfl
  · refine .modify fun t ht => ?_
    obtain ⟨⟨name, hname, hrefuse⟩, -⟩ := ht
    exact ⟨.api, name, .own hname, hrefuse⟩

theorem onTypes_mirrors (x : Edit Registry Unit) :
    Mirrors DeclareAlike (fun _ _ => False) (onTypes x) (onTypes x) fun _ _ => DeclareAlike := by
  rintro ⟨declarations⟩ ⟨declarations'⟩ hst s' t' o p hs ht
  obtain rfl : declarations = declarations' := hst
  obtain ⟨rfl, rfl⟩ := Prod.mk.inj hs
  obtain ⟨rfl, rfl⟩ := Prod.mk.inj ht
  show Except.Mirrors _ _ (x declarations.types).outcome (x declarations.types).outcome
  cases (x declarations.types).outcome
  · exact True.intro
  · exact rfl

theorem resourceEntries_withoutUses (entries : Mapping) :
    resourceEntries (withoutUses entries) =
      (resourceEntries entries).map fun e => (e.1, Resource.unannotated e.2) := by
  rw [resourceEntries, withoutUses, Mapping.unannotated, List.filterMap_filterMap, resourceEntries,
    List.map_filterMap]
  refine List.filterMap_congr fun e _ => ?_
  obtain ⟨k, v⟩ := e
  cases k with
  | text key =>
      cases huse : Annotations.isUse (.text key) with
      | true =>
          have hslash : Text.startsIn '/' key = false := (Annotations.isUse_spec huse).1
          simp [hslash]
      | false =>
          cases hslash : Text.startsIn '/' key <;>
            simp [unannotatedBelow, Value.shown, hslash]
  | _ => split_ifs <;> rfl

theorem addResources_mirrors (entries : Mapping) :
    Mirrors DeclareAlike (Misuse entries) (addResources entries)
      (addResources (withoutUses entries)) fun _ _ => DeclareAlike := by
  unfold addResources
  refine .get fun a b hab => ?_
  dsimp only
  rw [resourceEntries_withoutUses, List.mapM_map]
  refine .bind (M := Misuse entries)
    (.mapM (fun e he => ?_) fun f e => .traced fun r _ => .pure fun _ => id)
    (fun resources resources' => ?_) fun f resources => .modify fun _ => id
  · rw [hab]
    have hresource : Traced.Mirrors (fun f => Misuse entries f b) (fun _ _ => True)
        (Resource.ofDefinition b.toDeclarations (.text e.1) e.2)
        (Resource.ofDefinition b.toDeclarations (.text e.1) (Resource.unannotated e.2)) :=
      Resource.ofDefinition_mirrors
        (fun target name f hcarries hrefuse => ⟨target, name, .resource he hcarries, hrefuse⟩)
        (.text e.1)
    refine (Mirrors.lift hresource).bind (fun r s => .pure fun _ _ h => h.2) fun f s => ?_
    exact .pure fun t ⟨hmisuse, _, _, ht⟩ => ht ▸ hmisuse
  · refine .modify fun s t ⟨hs, ht⟩ => ?_
    subst hs ht
    exact hab

/-- The types and the resources of an API have no say in what is a misuse. -/
theorem onTypes_misuse (entries : Mapping) (x : Edit Registry Unit) (f : Fault) :
    Ensures (Misuse entries f) (onTypes x) fun _ => Misuse entries f := by
  refine .onPart fun a ha => ?_
  rintro _ rfl u types -
  exact ha

theorem addResources_misuse (entries added : Mapping) (f : Fault) :
    Ensures (Misuse entries f) (addResources added) fun _ => Misuse entries f := by
  refine .get fun a ha => .bind (.mapM (Q := fun _ => True) fun e _ => ?_) fun resources => ?_
  · exact .traced fun r _ => .pure fun s hs => ⟨trivial, hs⟩
  · exact .modify fun s hs => hs.2 ▸ ha

theorem addEntries_mirrors (entries : Mapping) :
    Mirrors Eq (Misuse entries) (addEntries entries) (addEntries (withoutUses entries))
      fun _ _ => DeclareAlike := by
  have hlast : ∀ f (told : Api → Traced Unit), Ensures (Misuse entries f)
      (Edit.get >>= fun a => (told a : Edit Api Unit)) fun _ => Misuse entries f :=
    fun f told => .get fun a ha => .last fun s hs _ => hs ▸ ha
  unfold addEntries
  rw [describe_withoutUses, declareTypes_withoutUses, keepDeclared_withoutUses]
  refine .after fun _ => .after fun _ => .after fun _ => ?_
  refine (declareUses_mirrors entries).bind (fun _ _ => ?_) fun f _ => ?_
  · refine (onTypes_mirrors _).bind (fun _ _ => ?_) fun f _ _ hf => hf.elim
    refine (addResources_mirrors entries).bind (fun _ _ => ?_) fun f _ => hlast f _
    refine .get fun a b hab => ?_
    rintro _ _ ⟨rfl, rfl⟩ _ _ _ _ ⟨⟩ ⟨⟩
    exact hab
  · refine .bind (onTypes_misuse entries _ f) fun _ => ?_
    exact .bind (addResources_misuse entries _ f) fun _ => hlast f _

/-- How the outcomes of a definition and of the one without annotations go together. -/
inductive ReadAlike (definition : Value) : Except Fault Api → Except Fault Api → Prop
  | accepted {a b : Api} (h : a.annotationTypes = b.annotationTypes) :
      ReadAlike definition (.ok a) (.ok b)
  | misused {b : Api} {target : AnnotationTarget} {name : String} {f : Fault}
      (hcarries : Carries definition target name)
      (hrefuse : b.annotationTypes.Refuse target name f) : ReadAlike definition (.error f) (.ok b)
  | refused (f f' : Fault) : ReadAlike definition (.error f) (.error f')

theorem ReadAlike.of_mirrors {entries : Mapping} {a b : Api} {o p : Except Fault Unit}
    (h : Except.Mirrors (Misuse entries · b) (fun _ _ => a.DeclareAlike b) o p) :
    ReadAlike (.map entries) (o.map fun _ => a) (p.map fun _ => b) := by
  cases o with
  | error f =>
      cases p with
      | error f' => exact .refused f f'
      | ok _ =>
          obtain ⟨target, name, hcarries, hrefuse⟩ := h
          exact .misused hcarries hrefuse
  | ok _ =>
      cases p with
      | error f' => exact h.elim
      | ok _ => exact .accepted (congrArg Declarations.annotationTypes h)

theorem ofDefinition_readAlike (title definition : Value) (registry : Registry) :
    ReadAlike definition (ofDefinition title definition registry).outcome
      (ofDefinition title (unannotated definition) registry).outcome := by
  by_cases hmap : ∃ entries, definition = .map entries
  · obtain ⟨entries, rfl⟩ := hmap
    have hexclusive : isExclusive (withoutUses entries) = isExclusive entries := by
      simp only [isExclusive, field_withoutUses (s := "schemas") (by decide) (by decide),
        field_withoutUses (s := "types") (by decide) (by decide)]
    rw [unannotated, ofDefinition_map, ofDefinition_map, hexclusive]
    split
    · exact .refused _ _
    · cases readTitle title with
      | error f => exact .refused f f
      | ok text =>
          have hrun := addEntries_mirrors entries { ofTitle text with types := [] } _ rfl _ _ _ _
            rfl rfl
          exact .of_mirrors hrun
  · have hsame : unannotated definition = definition := by
      cases definition with
      | map entries => exact absurd ⟨entries, rfl⟩ hmap
      | _ => rfl
    rw [hsame]
    cases (ofDefinition title definition registry).outcome with
    | error f => exact .refused f f
    | ok a => exact .accepted rfl

/-- Every annotation of an accepted API stands on a node that its annotation type allows. A
definition that is acceptable but for its annotations is accepted if all annotations that it carries
may be used, and else refused for one of them. -/
theorem annotations_are_allowed (title definition : Value) (registry : Registry) :
    (∀ a, (ofDefinition title definition registry).outcome = .ok a → a.AllowedThroughout) ∧
      ∀ definition' b, unannotated definition' = unannotated definition →
        (ofDefinition title definition' registry).outcome = .ok b →
          ((∀ target name, Carries definition target name → b.annotationTypes.Allow target name) →
            ∃ a, (ofDefinition title definition registry).outcome = .ok a) ∧
          ∀ target name, Carries definition target name →
            ¬ b.annotationTypes.Allow target name →
              ∃ f target' name', (ofDefinition title definition registry).outcome = .error f ∧
                Carries definition target' name' ∧ b.annotationTypes.Refuse target' name' f := by
  refine ⟨fun a => ofDefinition_allowedThroughout, fun definition' b hsame hb => ?_⟩
  have halike := ofDefinition_readAlike title definition registry
  have halike' := ofDefinition_readAlike title definition' registry
  rw [hsame, hb] at halike'
  have hnot : ∀ a, (ofDefinition title definition registry).outcome = .ok a →
      a.annotationTypes = b.annotationTypes → ∀ target name, Carries definition target name →
        b.annotationTypes.Allow target name :=
    fun a ha htypes target name hcarries => htypes ▸ allow_of_carries ha hcarries
  generalize (ofDefinition title definition registry).outcome = o at halike hnot
  generalize (ofDefinition title (unannotated definition) registry).outcome = p at halike halike'
  cases halike' with
  | accepted htypes' =>
      cases halike with
      | @accepted a _ htypes =>
          have hallowed := hnot a rfl (htypes.trans htypes'.symm)
          exact ⟨fun _ => ⟨a, rfl⟩, fun target name hcarries hrefused =>
            absurd (hallowed target name hcarries) hrefused⟩
      | @misused _ target name f hcarries hrefuse =>
          rw [← htypes'] at hrefuse
          refine ⟨fun hallowed => absurd (hallowed target name hcarries) hrefuse.not_allow, ?_⟩
          exact fun _ _ _ _ => ⟨f, target, name, rfl, hcarries, hrefuse⟩

/-- Songs with an annotation type for some target, and with entries of their own. -/
def annotatedSongs (target : String) (own : Mapping) : Value :=
  .map
    [(.text "annotationTypes", .map
      [(.text "beta", .map [(.text "allowedTargets", .text target)])]),
    (.text "/songs", .map own)]

/-- An annotation for resources is accepted on a resource, and refused if it is for the API only. -/
theorem annotations_are_allowed_songs :
    (∃ a, (ofDefinition (.text "Music") (annotatedSongs "Resource" [(.text "(beta)", .null)])
      []).outcome = .ok a ∧ a.AllowedThroughout) ∧
    ∃ f, (ofDefinition (.text "Music") (annotatedSongs "API" [(.text "(beta)", .null)])
      []).outcome = .error f := by
  constructor
  · have hrun : (ofDefinition (.text "Music")
        (annotatedSongs "Resource" [(.text "(beta)", .null)]) []).outcome.toOption.isSome := by
      decide +kernel
    have ha := Except.eq_ok_get hrun
    exact ⟨_, ha, (annotations_are_allowed _ _ _).1 _ ha⟩
  · have hrun : (ofDefinition (.text "Music") (annotatedSongs "API" []) []).outcome.toOption.map
        (fun b => (b.annotationTypes.get? "beta").map fun t => t.allows .resource) =
          some (some false) := by
      decide
    obtain ⟨b, hb, hbeta⟩ := Option.map_eq_some_iff.1 hrun
    obtain ⟨t, hget, ht⟩ := Option.map_eq_some_iff.1 hbeta
    have hsongs : Resource.unannotated (.map []) =
        Resource.unannotated (.map [(.text "(beta)", .null)]) := by
      have huse : Annotations.isUse (.text "(beta)") = true := by decide
      simp [Resource.unannotated_map, Mapping.unannotated, huse]
    have hsame : unannotated (annotatedSongs "API" []) =
        unannotated (annotatedSongs "API" [(.text "(beta)", .null)]) := by
      have hbelow : ∀ v, unannotatedBelow (.text "/songs") v = Resource.unannotated v :=
        fun v => if_pos (by decide)
      simp only [unannotated, annotatedSongs, Mapping.unannotated, List.filterMap_cons, hbelow,
        hsongs]
    have hcarries : Carries (annotatedSongs "API" [(.text "(beta)", .null)]) .resource "beta" := by
      have hname : Annotation.nameOf? "(beta)" = some "beta" := by decide
      have hmem : ("/songs", Value.map [(.text "(beta)", .null)]) ∈
          resourceEntries [(.text "annotationTypes", .map
            [(.text "beta", .map [(.text "allowedTargets", .text "API")])]),
            (.text "/songs", .map [(.text "(beta)", .null)])] := by
        have hslash : Text.startsIn '/' "/songs" = true := by decide
        simp [resourceEntries, hslash]
      exact .resource hmem (.own ⟨_, List.mem_singleton_self _, hname⟩)
    have hforbidden : ¬ b.annotationTypes.Allow .resource "beta" :=
      (AnnotationTypes.Refuse.forbidden hget ht).not_allow
    obtain ⟨-, hrefused⟩ := (annotations_are_allowed (.text "Music")
      (annotatedSongs "API" [(.text "(beta)", .null)]) []).2 _ b hsame (Except.eq_ok_of_toOption hb)
    obtain ⟨f, -, -, hf, -, -⟩ := hrefused .resource "beta" hcarries hforbidden
    exact ⟨f, hf⟩

end Api

end Raml
