import Raml.Proofs.DataType.Members
import Raml.Resource.Build

/-! # The tree of resources

A path of keys leads through nested definitions and, alike, through nested
resources. What a resource has is told by the definitions along its path: URI
parameters and annotations by all of them, the deepest first, base URI
parameters and security by its own and the API alone, methods by its own. No
other definition has a say in it.
-/

namespace Raml

/-! ## Paths -/

namespace Resource

def nestedEntries (entries : Mapping) : Mapping :=
  entries.filter fun e => Text.startsIn '/' e.1.shown

def methodEntries (entries : Mapping) : Mapping :=
  entries.filter fun e => !Text.startsIn '/' e.1.shown && isVerb e.1.shown

/-- The entries of a definition that declare something of the resource itself. -/
def ownEntries (entries : Mapping) : Mapping :=
  entries.filter fun e => !Text.startsIn '/' e.1.shown

/-- The definition under a key of a nested resource; the last of several counts. -/
def nestedDefinition? (entries : Mapping) (key : String) : Option Value :=
  ((nestedEntries entries).reverse.find? fun e => e.1.shown == key).map (·.2)

/-- The entries of the definitions above the one that a path leads to, from the top, and its own
ones. -/
def along? : Value → List String → Option (List Mapping × Mapping)
  | definition, [] => definition.optionalEntries.toOption.map fun entries => ([], entries)
  | definition, key :: path => do
      let entries ← definition.optionalEntries.toOption
      let nested ← nestedDefinition? entries key
      (along? nested path).map fun c => (entries :: c.1, c.2)

def declaredAt? (definition : Value) (path : List String) : Option Mapping :=
  (along? definition path).map fun c => ownEntries c.2

def descendant? : Resource → List String → Option Resource
  | r, [] => some r
  | r, key :: path => (Table.get? r.resources key).bind (descendant? · path)

def withoutNested (r : Resource) : Resource :=
  { r with resources := [] }

end Resource

/-! ## What a definition declares -/

namespace Declarations

variable (d : Declarations)

def uriParametersOf (entries : Mapping) : Except Fault Parameters :=
  (d.parameters true (entries.field "uriParameters")).outcome

def baseUriParametersOf (entries : Mapping) : Except Fault Parameters :=
  (d.parameters true (entries.field "baseUriParameters")).outcome

def annotationsOf (entries : Mapping) : Except Fault Annotations :=
  Annotations.ofEntries d.annotationTypes .resource entries

/-- The security schemes that a definition of a resource or a method names. -/
def securityOf (entries : Mapping) : Except Fault SecuritySchemes :=
  match entries.field? "securedBy" with
  | none => .ok []
  | some v => d.securitySchemes.resolve v

variable {d}

theorem parameters_distinct {required : Bool} {v : Value} {parameters : Parameters}
    (h : (d.parameters required v).outcome = .ok parameters) : Table.Distinct parameters := by
  obtain ⟨entries, -, h⟩ := Except.bind_eq_ok_iff.1 ((Traced.outcome_bind _ _).symm.trans h)
  obtain ⟨read, -, h⟩ := Except.bind_eq_ok_iff.1 ((Traced.outcome_bind _ _).symm.trans h)
  obtain rfl := Except.ok.inj h
  exact Table.distinct_ofList _

theorem annotationsOf_distinct {entries : Mapping} {annotations : Annotations}
    (h : d.annotationsOf entries = .ok annotations) : Table.Distinct annotations := by
  obtain ⟨found, -, h⟩ := Except.bind_eq_ok_iff.1 h
  obtain rfl := Except.ok.inj h
  exact Table.distinct_ofList _

theorem securityOf_distinct {entries : Mapping} {schemes : SecuritySchemes}
    (h : d.securityOf entries = .ok schemes) : Table.Distinct schemes := by
  cases hentry : entries.field? "securedBy" with
  | none =>
      simp only [securityOf, hentry] at h
      obtain rfl := Except.ok.inj h
      exact Table.distinct_ofList []
  | some v =>
      simp only [securityOf, hentry] at h
      obtain ⟨found, -, h⟩ := Except.bind_eq_ok_iff.1 h
      obtain rfl := Except.ok.inj h
      exact Table.distinct_ofList _

theorem secured_eq_ok {outer schemes : SecuritySchemes} {entries : Mapping}
    (h : Method.secured d outer entries = .ok schemes) :
    ∃ declared, d.securityOf entries = .ok declared ∧
      Table.IsOverlay outer [declared] schemes := by
  have hdeclared : ∃ declared, d.securityOf entries = .ok declared ∧
      schemes = Table.overlay outer declared := by
    cases hentry : entries.field? "securedBy" with
    | none =>
        simp only [Method.secured, hentry] at h
        simp only [securityOf, hentry]
        exact ⟨[], rfl, (Except.ok.inj h).symm⟩
    | some v =>
        simp only [Method.secured, hentry] at h
        simp only [securityOf, hentry]
        obtain ⟨declared, hdeclared, h⟩ := Except.bind_eq_ok_iff.1 h
        exact ⟨declared, hdeclared, (Except.ok.inj h).symm⟩
  obtain ⟨declared, hdeclared, rfl⟩ := hdeclared
  exact ⟨declared, hdeclared, .single (securityOf_distinct hdeclared)⟩

end Declarations

theorem Traced.bind_eq_ok_iff {α β : Type} {x : Traced α} {f : α → Traced β} {b : β} :
    (x >>= f).outcome = .ok b ↔ ∃ a, x.outcome = .ok a ∧ (f a).outcome = .ok b := by
  rw [outcome_bind]
  exact Except.bind_eq_ok_iff

/-! ## One resource -/

/-- Whether a method is the one that an entry declares, with its own security laid over that of its
resource. -/
structure Method.DeclaredBy (d : Declarations) (schemes : SecuritySchemes) (e : Value × Value)
    (m : Method) : Prop where
  built : (ofDefinition d schemes e.1.shown e.2).outcome = .ok m
  verb : m.verb = Text.upper e.1.shown
  securitySchemes : ∃ entries declared, e.2.optionalEntries = .ok entries ∧
    d.securityOf entries = .ok declared ∧ Table.IsOverlay schemes [declared] m.securitySchemes

theorem Method.ofDefinition_declaredBy {d : Declarations} {schemes : SecuritySchemes}
    {e : Value × Value} {m : Method}
    (h : (ofDefinition d schemes e.1.shown e.2).outcome = .ok m) :
    DeclaredBy d schemes e m := by
  have hbuilt := h
  unfold ofDefinition at h
  cases hentries : e.2.optionalEntries with
  | error f =>
      rw [hentries] at h
      cases h
  | ok entries =>
      rw [hentries] at h
      obtain ⟨_, hpure, h⟩ := Traced.bind_eq_ok_iff.1 h
      obtain rfl := Except.ok.inj hpure
      obtain ⟨headers, -, h⟩ := Traced.bind_eq_ok_iff.1 h
      obtain ⟨queryParameters, -, h⟩ := Traced.bind_eq_ok_iff.1 h
      obtain ⟨protocols, -, h⟩ := Traced.bind_eq_ok_iff.1 h
      obtain ⟨plain, hplain, h⟩ := Traced.bind_eq_ok_iff.1 h
      obtain ⟨inForce, hschemes, h⟩ := Traced.bind_eq_ok_iff.1 h
      obtain ⟨annotations, -, h⟩ := Traced.bind_eq_ok_iff.1 h
      have hkept : m.verb = plain.verb ∧ m.securitySchemes = inForce := by
        dsimp only at h
        split at h
        all_goals
          obtain ⟨bodies, -, h⟩ := Traced.bind_eq_ok_iff.1 h
          obtain ⟨responses, -, h⟩ := Traced.bind_eq_ok_iff.1 h
          obtain rfl := Except.ok.inj h
          exact ⟨rfl, rfl⟩
      have hread := (Checked.toExcept_eq_ok_iff _ _ _).1 hplain
      simp only [read, Checked.seq_eq_ok_iff, Checked.map_eq_ok_iff] at hread
      obtain ⟨_, _, ⟨_, _, ⟨_, -, rfl⟩, -, rfl⟩, -, rfl⟩ := hread
      obtain ⟨declared, hdeclared, hoverlay⟩ := Declarations.secured_eq_ok hschemes
      rw [← hkept.2] at hoverlay
      exact ⟨hbuilt, hkept.1, entries, declared, hentries, hdeclared, hoverlay⟩

namespace Resource

variable {d : Declarations} {inherited : Inherited} {uri relativeUri : String}

/-- What a resource has before its methods and nested resources are added. -/
structure IsHead (d : Declarations) (inherited : Inherited) (uri : String) (entries : Mapping)
    (r : Resource) : Prop where
  uri : r.uri = uri
  methods : r.methods = []
  resources : r.resources = []
  uriParameters : ∃ declared, d.uriParametersOf entries = .ok declared ∧
    r.uriParameters = Table.overlay inherited.uriParameters declared
  annotations : ∃ declared, d.annotationsOf entries = .ok declared ∧
    r.annotations = Table.overlay inherited.annotations declared
  baseUriParameters : ∃ declared, d.baseUriParametersOf entries = .ok declared ∧
    Table.IsOverlay d.baseUriParameters [declared] r.baseUriParameters
  securitySchemes : ∃ declared, d.securityOf entries = .ok declared ∧
    Table.IsOverlay d.securedBy [declared] r.securitySchemes

theorem head_isHead {entries : Mapping} {r : Resource}
    (h : (head d inherited uri relativeUri entries).outcome = .ok r) :
    IsHead d inherited uri entries r := by
  obtain ⟨plain, hplain, h⟩ := Traced.bind_eq_ok_iff.1 h
  obtain ⟨base, hbase, h⟩ := Traced.bind_eq_ok_iff.1 h
  obtain ⟨own, hown, h⟩ := Traced.bind_eq_ok_iff.1 h
  obtain ⟨schemes, hschemes, h⟩ := Traced.bind_eq_ok_iff.1 h
  obtain ⟨annotations, hannotations, h⟩ := Traced.bind_eq_ok_iff.1 h
  obtain rfl := Except.ok.inj h
  have hread := (Checked.toExcept_eq_ok_iff _ _ _).1 hplain
  simp only [read, Checked.seq_eq_ok_iff, Checked.map_eq_ok_iff] at hread
  obtain ⟨_, _, ⟨_, -, rfl⟩, -, rfl⟩ := hread
  exact
    { uri := rfl
      methods := rfl
      resources := rfl
      uriParameters := ⟨own, hown, rfl⟩
      annotations := ⟨annotations, hannotations, rfl⟩
      baseUriParameters := ⟨base, hbase, .single (Declarations.parameters_distinct hbase)⟩
      securitySchemes := Declarations.secured_eq_ok hschemes }

/-- The methods that entries declare, inside a resource with the given schemes in force. -/
def readMethods (d : Declarations) (schemes : SecuritySchemes) (entries : Mapping) :
    Except Fault (List Method) :=
  (methodEntries entries).mapM fun e => (Method.ofDefinition d schemes e.1.shown e.2).outcome

def readNested (d : Declarations) (inherited : Inherited) (uri : String) (entries : Mapping) :
    Except Fault (List (String × Resource)) :=
  (nestedEntries entries).mapM fun e =>
    (build d inherited (uri ++ e.1.shown) e.1.shown e.2).outcome.map (e.1.shown, ·)

/-- Entries add the methods and the nested resources that they declare, and nothing else. -/
theorem addAll_eq_ok {r s : Resource} {entries : Mapping}
    (h : (addAll d inherited r entries).outcome = .ok s) :
    ∃ methods nested, readMethods d r.securitySchemes entries = .ok methods ∧
      readNested d inherited r.uri entries = .ok nested ∧
      s = { r with
        methods := Table.overlay r.methods (methods.map fun m => (m.verb, m))
        resources := Table.overlay r.resources nested } := by
  -- an entry adds to one table at most, so the two tables are laid over independently of each other
  induction entries generalizing r with
  | nil =>
      rw [addAll] at h
      obtain rfl := Except.ok.inj h
      refine ⟨[], [], rfl, rfl, ?_⟩
      cases r
      rfl
  | cons e rest ih =>
      obtain ⟨k, v⟩ := e
      rw [addAll] at h
      obtain ⟨r', hone, h⟩ := Traced.bind_eq_ok_iff.1 h
      obtain ⟨methods, nested, hmethods, hnested, rfl⟩ := ih h
      rw [addOne] at hone
      split at hone
      · next hslash =>
          obtain ⟨n, hn, hone⟩ := Traced.bind_eq_ok_iff.1 hone
          obtain rfl := Except.ok.inj hone
          refine ⟨methods, (k.shown, n) :: nested, ?_, ?_, rfl⟩
          · simpa [readMethods, methodEntries, hslash] using hmethods
          · simp only [readNested, nestedEntries, List.filter_cons, hslash, if_true, List.mapM_cons,
              hn] at hnested ⊢
            rw [hnested]
            rfl
      · next hslash =>
          split at hone
          · next hverb =>
              obtain ⟨m, hm, hone⟩ := Traced.bind_eq_ok_iff.1 hone
              obtain rfl := Except.ok.inj hone
              refine ⟨m :: methods, nested, ?_, ?_, rfl⟩
              · simp only [readMethods, methodEntries, List.filter_cons, hslash, hverb,
                  Bool.not_false, Bool.and_self, if_true, List.mapM_cons, hm] at hmethods ⊢
                rw [hmethods]
                rfl
              · simpa [readNested, nestedEntries, hslash] using hnested
          · next hverb =>
              obtain rfl := Except.ok.inj hone
              refine ⟨methods, nested, ?_, ?_, rfl⟩
              · simpa [readMethods, methodEntries, hslash, hverb] using hmethods
              · simpa [readNested, nestedEntries, hslash] using hnested

theorem optionalEntries_map (entries : Mapping) :
    (Value.map entries).optionalEntries = .ok entries := by
  cases entries <;> rfl

/-- A definition is read by its entries, be they none. -/
theorem build_entries {definition : Value} {r : Resource}
    (h : (build d inherited uri relativeUri definition).outcome = .ok r) :
    ∃ entries r₀, definition.optionalEntries = .ok entries ∧
      (head d inherited uri relativeUri entries).outcome = .ok r₀ ∧
      (addAll d (.ofResource r₀) r₀ entries).outcome = .ok r := by
  unfold build at h
  split at h
  · next entries =>
      obtain ⟨r₀, hhead, h⟩ := Traced.bind_eq_ok_iff.1 h
      obtain ⟨s, hall, h⟩ := Traced.bind_eq_ok_iff.1 h
      obtain ⟨_, -, h⟩ := Traced.bind_eq_ok_iff.1 h
      obtain rfl := Except.ok.inj h
      exact ⟨entries, r₀, optionalEntries_map entries, hhead, hall⟩
  · split at h
    · next hempty =>
        obtain ⟨r₀, hhead, h⟩ := Traced.bind_eq_ok_iff.1 h
        obtain ⟨_, -, h⟩ := Traced.bind_eq_ok_iff.1 h
        exact ⟨[], r₀, by simp [Value.optionalEntries, hempty], hhead, by rwa [addAll]⟩
    · cases h

/-- A resource is what its definition's own entries make of it, with the methods and the nested
resources that the entries declare. -/
theorem build_eq_ok {definition : Value} {r : Resource}
    (h : (build d inherited uri relativeUri definition).outcome = .ok r) :
    ∃ entries r₀ methods nested, definition.optionalEntries = .ok entries ∧
      (head d inherited uri relativeUri entries).outcome = .ok r₀ ∧
      readMethods d r₀.securitySchemes entries = .ok methods ∧
      readNested d (.ofResource r₀) uri entries = .ok nested ∧
      r = { r₀ with
        methods := Table.ofList (methods.map fun m => (m.verb, m))
        resources := Table.ofList nested } := by
  obtain ⟨entries, r₀, hentries, hhead, h⟩ := build_entries h
  have hr := head_isHead hhead
  obtain ⟨methods, nested, hmethods, hnested, rfl⟩ := addAll_eq_ok h
  rw [hr.uri] at hnested
  rw [hr.methods, hr.resources]
  exact ⟨entries, r₀, methods, nested, hentries, hhead, hmethods, hnested, rfl⟩

/-! ## Down a path -/

structure Inherits (d : Declarations) (inherited : Inherited) (uri : String) (above : List Mapping)
    (own : Mapping) (r : Resource) : Prop where
  uri : r.uri = uri
  nested : Table.keys r.resources = ((nestedEntries own).map fun e => e.1.shown).eraseDups
  uriParameters : ∃ declared, (above ++ [own]).mapM d.uriParametersOf = .ok declared ∧
    Table.IsOverlay inherited.uriParameters declared r.uriParameters
  annotations : ∃ declared, (above ++ [own]).mapM d.annotationsOf = .ok declared ∧
    Table.IsOverlay inherited.annotations declared r.annotations
  baseUriParameters : ∃ declared, d.baseUriParametersOf own = .ok declared ∧
    Table.IsOverlay d.baseUriParameters [declared] r.baseUriParameters
  securitySchemes : ∃ declared, d.securityOf own = .ok declared ∧
    Table.IsOverlay d.securedBy [declared] r.securitySchemes
  verbs : Table.keys r.methods =
    ((methodEntries own).map fun e => Text.upper e.1.shown).eraseDups
  methods : ∀ verb m, r.methods.get? verb = some m → ∃ e,
    ((methodEntries own).reverse.find? fun e => Text.upper e.1.shown == verb) = some e ∧
      m.DeclaredBy d r.securitySchemes e

theorem readMethods_declaredBy {schemes : SecuritySchemes} {entries : Mapping}
    {methods : List Method} (h : readMethods d schemes entries = .ok methods) :
    List.Forall₂ (fun e m => Method.DeclaredBy d schemes e m) (methodEntries entries) methods :=
  (forall₂_of_mapM h).imp fun _ _ => Method.ofDefinition_declaredBy

theorem readNested_built {entries : Mapping} {nested : List (String × Resource)}
    (h : readNested d inherited uri entries = .ok nested) :
    List.Forall₂ (fun e n => n.1 = e.1.shown ∧
      (build d inherited (uri ++ e.1.shown) e.1.shown e.2).outcome = .ok n.2)
      (nestedEntries entries) nested := by
  refine (forall₂_of_mapM h).imp fun e n hn => ?_
  obtain ⟨r, hr, rfl⟩ := Except.map_eq_ok_iff.1 hn
  exact ⟨rfl, hr⟩

/-- Under a verb stands the method of the last entry for it. -/
theorem get?_methods {schemes : SecuritySchemes} {entries : Mapping} {methods : List Method}
    (h : readMethods d schemes entries = .ok methods) (verb : String) :
    Option.Rel (fun e m => Method.DeclaredBy d schemes e m)
      ((methodEntries entries).reverse.find? fun e => Text.upper e.1.shown == verb)
      (Table.get? (Table.ofList (methods.map fun m => (m.verb, m))) verb) := by
  have hrel := find?_rel (f := fun e => Text.upper e.1.shown == verb) (g := fun m => m.verb == verb)
    (List.forall₂_reverse_iff.2 (readMethods_declaredBy h)) fun _ _ hm => by rw [hm.verb]
  rw [Table.get?_ofList, ← List.map_reverse, List.find?_map, Option.map_map]
  have hsame := rel_map (f := id) (g := id) hrel fun _ _ hm => hm.1
  rw [Option.map_id] at hsame
  exact hsame

/-- Under a key stands the nested resource of the last entry for it. -/
theorem get?_nested {entries : Mapping} {nested : List (String × Resource)}
    (h : readNested d inherited uri entries = .ok nested) (key : String) :
    Option.Rel (fun v r => (build d inherited (uri ++ key) key v).outcome = .ok r)
      (nestedDefinition? entries key) (Table.get? (Table.ofList nested) key) := by
  have hrel := find?_rel (f := fun e => e.1.shown == key) (g := fun n => n.1 == key)
    (List.forall₂_reverse_iff.2 (readNested_built h)) fun _ _ hn => by rw [hn.1]
  rw [Table.get?_ofList, nestedDefinition?]
  refine rel_map hrel fun e n hn => ?_
  obtain ⟨⟨hshown, hbuild⟩, hkey⟩ := hn
  rw [← hshown, beq_iff_eq.1 hkey] at hbuild
  exact hbuild

theorem build_inherits_here {definition : Value} {r : Resource}
    (h : (build d inherited uri relativeUri definition).outcome = .ok r) :
    ∃ entries, definition.optionalEntries = .ok entries ∧
      Inherits d inherited uri [] entries r := by
  obtain ⟨entries, r₀, methods, nested, hentries, hhead, hmethods, hnested, rfl⟩ := build_eq_ok h
  have hr := head_isHead hhead
  have hdeclared := readMethods_declaredBy hmethods
  have hbuilt := readNested_built hnested
  obtain ⟨uriParameters, huri, huriOverlay⟩ := hr.uriParameters
  obtain ⟨annotations, hannotations, hannotationsOverlay⟩ := hr.annotations
  refine ⟨entries, hentries, ?_⟩
  exact
    { uri := hr.uri
      nested := by
        rw [Table.keys_ofList, map_eq_of_forall₂ (hbuilt.imp fun _ _ hn => hn.1)]
      uriParameters := ⟨[uriParameters], by simp [huri], huriOverlay ▸
        .single (Declarations.parameters_distinct huri)⟩
      annotations := ⟨[annotations], by simp [hannotations], hannotationsOverlay ▸
        .single (Declarations.annotationsOf_distinct hannotations)⟩
      baseUriParameters := hr.baseUriParameters
      securitySchemes := hr.securitySchemes
      verbs := by
        rw [Table.keys_ofList, List.map_map]
        exact congrArg _ (map_eq_of_forall₂ (hdeclared.imp fun _ _ hm => hm.verb))
      methods := by
        intro verb m hm
        have hrel := get?_methods hmethods verb
        rw [show Table.get? _ verb = some m from hm] at hrel
        obtain ⟨e, he, hdeclares⟩ := exists_of_rel_right hrel
        exact ⟨e, he, hdeclares⟩ }

theorem Inherits.cons {entries own : Mapping} {above : List Mapping} {r₀ r : Resource}
    {uri' : String} (hr₀ : IsHead d inherited uri entries r₀)
    (h : Inherits d (.ofResource r₀) uri' above own r) :
    Inherits d inherited uri' (entries :: above) own r := by
  obtain ⟨first, hfirst, hfirstOverlay⟩ := hr₀.uriParameters
  obtain ⟨note, hnote, hnoteOverlay⟩ := hr₀.annotations
  obtain ⟨declared, hdeclared, hoverlay⟩ := h.uriParameters
  obtain ⟨notes, hnotes, hnotesOverlay⟩ := h.annotations
  simp only [Inherited.ofResource, hfirstOverlay] at hoverlay
  simp only [Inherited.ofResource, hnoteOverlay] at hnotesOverlay
  refine { h with uriParameters := ⟨first :: declared, ?_, ?_⟩, annotations := ⟨note :: notes, ?_, ?_⟩ }
  · simp only [List.cons_append, List.mapM_cons, hfirst, hdeclared]
    rfl
  · exact .cons (Declarations.parameters_distinct hfirst) hoverlay
  · simp only [List.cons_append, List.mapM_cons, hnote, hnotes]
    rfl
  · exact .cons (Declarations.annotationsOf_distinct hnote) hnotesOverlay

/-- A path leads to a definition and to a resource or to neither, and what the resource has is told
by the definitions along the path. -/
theorem build_along {definition : Value} {r : Resource}
    (h : (build d inherited uri relativeUri definition).outcome = .ok r) (path : List String) :
    Option.Rel (fun c s => Inherits d inherited (uri ++ String.join path) c.1 c.2 s)
      (along? definition path) (r.descendant? path) := by
  induction path generalizing inherited uri relativeUri definition r with
  | nil =>
      obtain ⟨entries, hentries, hr⟩ := build_inherits_here h
      simp only [along?, hentries, Except.toOption, Option.map_some, descendant?]
      exact .some (by simpa [String.join] using hr)
  | cons key path ih =>
      obtain ⟨entries, r₀, methods, nested, hentries, hhead, -, hnested, rfl⟩ := build_eq_ok h
      simp only [along?, hentries, Except.toOption, descendant?, Option.bind_eq_bind,
        Option.bind_some]
      refine rel_bind (get?_nested hnested key) fun v child hchild => ?_
      have hlast := rel_map (S := fun c s => Inherits d inherited (uri ++ key ++ String.join path)
        c.1 c.2 s) (f := fun c => (entries :: c.1, c.2)) (g := id) (ih hchild)
        fun c s hs => hs.cons (head_isHead hhead)
      rw [Option.map_id] at hlast
      rwa [String.join_cons, ← String.append_assoc]

/-! ## What has no say -/

theorem field?_ownEntries (entries : Mapping) {s : String} (h : Text.startsIn '/' s = false) :
    (ownEntries entries).field? s = entries.field? s := by
  induction entries with
  | nil => rfl
  | cons e rest ih =>
      obtain ⟨k, v⟩ := e
      simp only [Mapping.field?, ownEntries] at ih ⊢
      cases hk : Text.startsIn '/' k.shown with
      | false => simp [hk, Table.get?, ih]
      | true =>
          have hne : (k == .text s) = false := by
            rw [Bool.eq_false_iff]
            intro heq
            rw [Value.beq_text] at heq
            subst heq
            rw [show (Value.text s).shown = s from rfl, h] at hk
            cases hk
          simp [hk, Table.get?, ih, hne]

theorem methodEntries_ownEntries (entries : Mapping) :
    methodEntries (ownEntries entries) = methodEntries entries := by
  rw [methodEntries, ownEntries, List.filter_filter]
  refine List.filter_congr fun e _ => ?_
  cases Text.startsIn '/' e.1.shown <;> simp

theorem annotationsOf_ownEntries (d : Declarations) (entries : Mapping) :
    d.annotationsOf (ownEntries entries) = d.annotationsOf entries := by
  have hnamed : ((ownEntries entries).filterMap fun e =>
      Annotation.nameOf? e.1.shown |>.map (·, e.2)) =
        entries.filterMap fun e => Annotation.nameOf? e.1.shown |>.map (·, e.2) := by
    rw [ownEntries, List.filterMap_filter]
    refine List.filterMap_congr fun e _ => ?_
    cases hslash : Text.startsIn '/' e.1.shown with
    | false => rfl
    | true =>
        have hnone : Annotation.nameOf? e.1.shown = none := by
          have hhead : e.1.shown.toList.head? = some '/' := by simpa [Text.startsIn] using hslash
          unfold Annotation.nameOf?
          cases htext : e.1.shown.toList with
          | nil => rfl
          | cons c rest =>
              rw [htext] at hhead
              obtain rfl := Option.some.inj hhead
              rfl
        simp [hnone]
  simp only [Declarations.annotationsOf, Annotations.ofEntries, hnamed]

/-- The entries for nested resources say nothing of the resource itself. -/
theorem head_ownEntries (entries : Mapping) :
    head d inherited uri relativeUri (ownEntries entries) =
      head d inherited uri relativeUri entries := by
  have hfield : ∀ {s : String}, Text.startsIn '/' s = false →
      (ownEntries entries).field s = entries.field s := fun h => by
    rw [Mapping.field, field?_ownEntries entries h, Mapping.field]
  have hsecured : ∀ outer, Method.secured d outer (ownEntries entries) =
      Method.secured d outer entries := fun outer => by
    rw [Method.secured, field?_ownEntries entries (by decide)]
    rfl
  have hannotations := annotationsOf_ownEntries d entries
  have hread : read d inherited uri relativeUri (ownEntries entries) =
      read d inherited uri relativeUri entries := by
    rw [read, field?_ownEntries entries (by decide), hfield (by decide)]
    rfl
  simp only [Declarations.annotationsOf] at hannotations
  simp only [head, hread, hannotations, hsecured, hfield (s := "baseUriParameters") (by decide),
    hfield (s := "uriParameters") (by decide)]

theorem declaredAt?_nil {definition : Value} {entries : Mapping}
    (h : definition.optionalEntries = .ok entries) :
    declaredAt? definition [] = some (ownEntries entries) := by
  simp [declaredAt?, along?, h, Except.toOption]

theorem declaredAt?_cons {definition : Value} {entries : Mapping}
    (h : definition.optionalEntries = .ok entries) (key : String) (path : List String) :
    declaredAt? definition (key :: path) =
      (nestedDefinition? entries key).bind (declaredAt? · path) := by
  simp only [declaredAt?, along?, h, Except.toOption, Option.bind_eq_bind, Option.bind_some]
  cases nestedDefinition? entries key with
  | none => rfl
  | some v => simp [Function.comp_def]

theorem declaredAt?_ne_none {definition : Value} {r : Resource}
    (h : (build d inherited uri relativeUri definition).outcome = .ok r) :
    declaredAt? definition [] ≠ none := by
  obtain ⟨entries, _, _, _, hentries, -, -, -, -⟩ := build_eq_ok h
  rw [declaredAt?_nil hentries]
  exact Option.some_ne_none _

theorem head_congr {entries entries' : Mapping} (hown : ownEntries entries = ownEntries entries') :
    head d inherited uri relativeUri entries = head d inherited uri relativeUri entries' := by
  rw [← head_ownEntries, hown, head_ownEntries]

theorem readMethods_congr {entries entries' : Mapping}
    (hown : ownEntries entries = ownEntries entries') (schemes : SecuritySchemes) :
    readMethods d schemes entries = readMethods d schemes entries' := by
  rw [readMethods, ← methodEntries_ownEntries, hown, methodEntries_ownEntries]
  rfl

/-- Where the definitions on a path say the same of their own resources, the resources are the same,
whatever is nested in them. -/
theorem descendant?_congr {definition definition' : Value} {r r' : Resource}
    (h : (build d inherited uri relativeUri definition).outcome = .ok r)
    (h' : (build d inherited uri relativeUri definition').outcome = .ok r') {path : List String}
    (hsame : ∀ above, above <+: path → declaredAt? definition above = declaredAt? definition' above) :
    (r.descendant? path).map withoutNested = (r'.descendant? path).map withoutNested := by
  -- down the path: both heads are the same, so both hand down the same to the next definition
  induction path generalizing inherited uri relativeUri definition definition' r r' with
  | nil =>
      obtain ⟨entries, r₀, methods, nested, hentries, hhead, hmethods, -, rfl⟩ := build_eq_ok h
      obtain ⟨entries', r₁, methods', nested', hentries', hhead', hmethods', -, rfl⟩ :=
        build_eq_ok h'
      have hown := hsame [] List.nil_prefix
      rw [declaredAt?_nil hentries, declaredAt?_nil hentries'] at hown
      rw [head_congr (Option.some.inj hown), hhead'] at hhead
      obtain rfl := Except.ok.inj hhead
      rw [readMethods_congr (Option.some.inj hown), hmethods'] at hmethods
      obtain rfl := Except.ok.inj hmethods
      rfl
  | cons key path ih =>
      obtain ⟨entries, r₀, methods, nested, hentries, hhead, -, hnested, rfl⟩ := build_eq_ok h
      obtain ⟨entries', r₁, methods', nested', hentries', hhead', -, hnested', rfl⟩ :=
        build_eq_ok h'
      have hown := hsame [] List.nil_prefix
      rw [declaredAt?_nil hentries, declaredAt?_nil hentries'] at hown
      rw [head_congr (Option.some.inj hown), hhead'] at hhead
      obtain rfl := Except.ok.inj hhead
      have hbelow : ∀ above, above <+: path →
          (nestedDefinition? entries key).bind (declaredAt? · above) =
            (nestedDefinition? entries' key).bind (declaredAt? · above) := by
        intro above habove
        have hkey := hsame (key :: above) (List.cons_prefix_cons.2 ⟨rfl, habove⟩)
        rwa [declaredAt?_cons hentries, declaredAt?_cons hentries'] at hkey
      have hrel := get?_nested hnested key
      have hrel' := get?_nested hnested' key
      simp only [descendant?]
      revert hrel hrel' hbelow
      generalize nestedDefinition? entries key = o
      generalize nestedDefinition? entries' key = o'
      generalize Table.get? (Table.ofList nested) key = n
      generalize Table.get? (Table.ofList nested') key = n'
      intro hbelow hrel hrel'
      cases hrel with
      | none =>
          cases hrel' with
          | none => rfl
          | some hbuild' => exact absurd (hbelow [] List.nil_prefix).symm (declaredAt?_ne_none hbuild')
      | some hbuild =>
          cases hrel' with
          | none => exact absurd (hbelow [] List.nil_prefix) (declaredAt?_ne_none hbuild)
          | some hbuild' => exact ih hbuild hbuild' hbelow

theorem ofDefinition_build {u : String} {definition : Value} {root : Resource}
    (h : (ofDefinition d (.text u) definition).outcome = .ok root) :
    (build d .none u u definition).outcome = .ok root := by
  unfold ofDefinition at h
  dsimp only at h
  split at h
  · exact h
  · cases h

/-- The tree of resources is that of their definitions, and each resource has what the definitions
down to it declare. Definitions that differ at one place and below it alone make trees that differ
there alone. -/
theorem tree_inherits {u : String} {definition : Value} {root : Resource}
    (h : (ofDefinition d (.text u) definition).outcome = .ok root) :
    (∀ path, (root.descendant? path).isSome = (along? definition path).isSome) ∧
      (∀ path above own r, along? definition path = some (above, own) →
        root.descendant? path = some r →
          Inherits d .none (u ++ String.join path) above own r) ∧
      ∀ definition' root', (ofDefinition d (.text u) definition').outcome = .ok root' →
        ∀ place, (∀ path, ¬ place <+: path →
            declaredAt? definition path = declaredAt? definition' path) →
          ∀ path, ¬ place <+: path →
            (root.descendant? path).map withoutNested =
              (root'.descendant? path).map withoutNested := by
  have hbuild := ofDefinition_build h
  refine ⟨fun path => ?_, fun path above own r hpath hr => ?_, ?_⟩
  · have hrel := build_along hbuild path
    generalize along? definition path = o at hrel ⊢
    generalize root.descendant? path = n at hrel ⊢
    cases hrel <;> rfl
  · have hrel := build_along hbuild path
    rw [hpath, hr] at hrel
    cases hrel with
    | some hinherits => exact hinherits
  · intro definition' root' h' place hsame path hpath
    refine descendant?_congr hbuild (ofDefinition_build h') fun above habove => ?_
    exact hsame above fun hplace => hpath (hplace.trans habove)

def userEntries : Mapping :=
  [(.text "uriParameters", .map [(.text "id", .text "integer")]), (.text "get", .null),
    (.text "Get", .null)]

def usersEntries : Mapping :=
  [(.text "uriParameters", .map [(.text "lang", .text "string")]),
    (.text "/\x7bid\x7d", .map userEntries)]

/-- A user has the parameter of all users and its own, and one method for two spellings. -/
theorem tree_inherits_user :
    ∃ root r, (ofDefinition .empty (.text "/users") (.map usersEntries)).outcome = .ok root ∧
      root.descendant? ["/\x7bid\x7d"] = some r ∧ r.uri = "/users/\x7bid\x7d" ∧
      Table.keys r.uriParameters = ["lang", "id"] ∧ Table.keys r.methods = ["GET"] := by
  obtain ⟨root, hroot⟩ : ∃ root,
      (ofDefinition .empty (.text "/users") (.map usersEntries)).outcome = .ok root :=
    ⟨_, Except.eq_ok_get (by decide)⟩
  obtain ⟨hplaces, hinherits, -⟩ := tree_inherits hroot
  have hsome : (root.descendant? ["/\x7bid\x7d"]).isSome = true := by
    rw [hplaces]
    rfl
  obtain ⟨r, hr⟩ := Option.isSome_iff_exists.1 hsome
  have hr' := hinherits _ [usersEntries] userEntries r rfl hr
  obtain ⟨declared, hdeclared, hoverlay⟩ := hr'.uriParameters
  refine ⟨root, r, hroot, hr, hr'.uri, ?_, hr'.verbs.trans (by decide)⟩
  have hkeys : (([usersEntries] ++ [userEntries]).mapM
      (Declarations.uriParametersOf .empty)).toOption.map
        (fun declared => Table.keys (declared.foldl Table.overlay ([] : Parameters))) =
      some ["lang", "id"] := by
    decide
  rw [hdeclared] at hkeys
  rw [hoverlay.entries]
  exact Option.some.inj hkeys

end Resource

end Raml
