import Raml.Proofs.Api.RouteTable

/-! # Protocols

An API's list of protocols only grows at its end, and no protocol enters it twice, whatever is
called on the API and whether or not a call succeeds. Routes have the list of the API. A method has
the names that its definition writes, in upper case, and nothing checks them: they are protocols,
each at most once, exactly if they are written so.
-/

namespace Raml

/-- Whether names are those of protocols, each at most once. -/
structure AreProtocols (names : List String) : Prop where
  nodup : names.Nodup
  known : ∀ name ∈ names, name = "HTTP" ∨ name = "HTTPS"

namespace Protocol

theorem text_injective : Function.Injective text := by
  intro p q h
  cases p <;> cases q <;> first | rfl | exact absurd h (by decide)

theorem areProtocols {ps : List Protocol} (h : ps.Nodup) : AreProtocols (ps.map text) where
  nodup := h.map text_injective
  known name hname := by
    obtain ⟨p, -, rfl⟩ := List.mem_map.1 hname
    cases p <;> decide

theorem exists_text_iff (name : String) :
    (∃ p : Protocol, name = p.text) ↔ name = "HTTP" ∨ name = "HTTPS" := by
  constructor
  · intro h
    obtain ⟨p, hp⟩ := h
    cases p with
    | http => exact .inl hp
    | https => exact .inr hp
  · intro h
    cases h with
    | inl hhttp => exact ⟨.http, hhttp⟩
    | inr hhttps => exact ⟨.https, hhttps⟩

end Protocol

/-! ## Calls -/

inductive ProtocolCall
  | addProtocol (protocol : Value)
  | setBaseUri (uri : Value)

def ProtocolCall.edit : ProtocolCall → Edit Api Unit
  | .addProtocol v => Api.addProtocol v
  | .setBaseUri uri => Api.setBaseUri uri

namespace Api

/-- The API after a call, also if the call has failed. -/
def afterCall (a : Api) (c : ProtocolCall) : Api := (c.edit a).state

/-- The API after several calls, also if some have failed. -/
def afterCalls (a : Api) (calls : List ProtocolCall) : Api := calls.foldl afterCall a

theorem addProtocol_state (v : Value) (a : Api) :
    (addProtocol v a).state = a ∨ ∃ p, p ∉ a.protocols ∧
      (addProtocol v a).state = { a with protocols := a.protocols ++ [p] } := by
  have hrun : (addProtocol v a).result = _ := Edit.result_bind _ _ a
  rw [Edit.result_except] at hrun
  have hstate : (addProtocol v a).state = (addProtocol v a).result.1 := rfl
  rw [hstate, hrun]
  cases Protocol.ofValue v with
  | error f => exact .inl rfl
  | ok p =>
      by_cases hp : p ∈ a.protocols
      · left
        simp [Edit.modify, Change.result, hp]
      · right
        exact ⟨p, hp, by simp [Edit.modify, Change.result, hp]⟩

theorem setBaseUri_state (uri : Value) (a : Api) :
    (setBaseUri uri a).state = { a with baseUri := uri } ∨ a.protocols = [] ∧ ∃ p,
      (setBaseUri uri a).state = { a with baseUri := uri, protocols := [p] } := by
  have hmodify : (Edit.modify (fun a : Api => { a with baseUri := uri }) a).result =
      ({ a with baseUri := uri }, .ok ()) := rfl
  have hrun : (setBaseUri uri a).result = _ := Edit.result_bind_ok hmodify _
  rw [Edit.result_bind_ok (Edit.result_get _)] at hrun
  have hstate : (setBaseUri uri a).state = (setBaseUri uri a).result.1 := rfl
  rw [hstate, hrun]
  cases hempty : a.protocols with
  | cons p rest => exact .inl rfl
  | nil =>
      simp only [List.isEmpty_nil, if_true]
      rw [Edit.result_bind, Edit.result_except]
      cases Protocol.ofBaseUri uri with
      | error f => exact .inl rfl
      | ok named =>
          cases named with
          | none => exact .inl rfl
          | some p => exact .inr ⟨trivial, p, rfl⟩

/-- What calls leave as it is, and how they change the protocols. -/
structure Extends (a b : Api) : Prop where
  grown : a.protocols <+: b.protocols
  distinct : a.protocols.Nodup → b.protocols.Nodup
  resources : b.resources = a.resources

theorem Extends.refl (a : Api) : Extends a a := ⟨List.prefix_rfl, id, rfl⟩

theorem Extends.trans {a b c : Api} (hab : Extends a b) (hbc : Extends b c) : Extends a c where
  grown := hab.grown.trans hbc.grown
  distinct h := hbc.distinct (hab.distinct h)
  resources := hbc.resources.trans hab.resources

theorem addProtocol_extends (v : Value) (a : Api) : Extends a (addProtocol v a).state := by
  cases addProtocol_state v a with
  | inl hsame =>
      rw [hsame]
      exact .refl a
  | inr hnew =>
      obtain ⟨p, hp, hstate⟩ := hnew
      rw [hstate]
      refine ⟨List.prefix_append _ _, fun hdistinct => ?_, rfl⟩
      exact List.nodup_append_comm.1 (List.nodup_cons.2 ⟨hp, hdistinct⟩)

theorem setBaseUri_extends (uri : Value) (a : Api) : Extends a (setBaseUri uri a).state := by
  cases setBaseUri_state uri a with
  | inl hsame =>
      rw [hsame]
      exact ⟨List.prefix_rfl, id, rfl⟩
  | inr hnamed =>
      obtain ⟨hempty, p, hstate⟩ := hnamed
      rw [hstate]
      exact ⟨hempty ▸ List.nil_prefix, fun _ => List.nodup_singleton p, rfl⟩

theorem afterCall_extends (a : Api) (c : ProtocolCall) : Extends a (a.afterCall c) := by
  cases c with
  | addProtocol v => exact addProtocol_extends v a
  | setBaseUri uri => exact setBaseUri_extends uri a

theorem afterCalls_extends (a : Api) (calls : List ProtocolCall) :
    Extends a (a.afterCalls calls) := by
  induction calls generalizing a with
  | nil => exact .refl a
  | cons c rest ih => exact (afterCall_extends a c).trans (ih (a.afterCall c))

theorem afterCalls_append (a : Api) (before after : List ProtocolCall) :
    a.afterCalls (before ++ after) = (a.afterCalls before).afterCalls after :=
  List.foldl_append

theorem setBaseUri_protocols (uri : Value) {a : Api} (h : a.protocols ≠ []) :
    (a.afterCall (.setBaseUri uri)).protocols = a.protocols := by
  have hstate : a.afterCall (.setBaseUri uri) = (setBaseUri uri a).state := rfl
  cases setBaseUri_state uri a with
  | inl hsame => rw [hstate, hsame]
  | inr hnamed => exact absurd hnamed.1 h

/-! ## Built APIs -/

open Edit (Ensures)

def HasDistinctProtocols (a : Api) : Prop := a.protocols.Nodup

theorem ensures_of_extends {x : Edit Api Unit} (h : ∀ a, Extends a (x a).state) :
    Ensures HasDistinctProtocols x fun _ => HasDistinctProtocols := by
  intro a ha u b hrun
  have hstate : (x a).state = b := congrArg Prod.fst hrun
  exact hstate ▸ (h a).distinct ha

theorem onTypes_distinct (x : Edit Registry Unit) :
    Ensures HasDistinctProtocols (onTypes x) fun _ => HasDistinctProtocols :=
  .onPart fun _ ha _ _ _ _ _ => ha

theorem describe_distinct (entries : Mapping) :
    Ensures HasDistinctProtocols (describe entries) fun _ => HasDistinctProtocols := by
  refine .keep (.modify fun _ ha => ha) fun _ => .except fun protocols _ => ?_
  refine .keep (.forEach fun v _ => ensures_of_extends (addProtocol_extends v)) fun _ => ?_
  refine .keep (whenPresent_ensures (ensures_of_extends (setBaseUri_extends _))) fun _ => ?_
  exact .except fun _ _ => .modify fun _ ha => ha

theorem addSchema_distinct (name schema : Value) :
    Ensures HasDistinctProtocols (addSchema name schema) fun _ => HasDistinctProtocols := by
  unfold addSchema
  split
  · exact .keep (.modify fun _ ha => ha) fun _ => .traced fun t _ => onTypes_distinct _
  · exact .keep (.modify fun _ ha => ha) fun _ => .traced fun t _ => onTypes_distinct _
  · exact .fail _

theorem addSchemaCollection_distinct (v : Value) :
    Ensures HasDistinctProtocols (addSchemaCollection v) fun _ => HasDistinctProtocols := by
  unfold addSchemaCollection
  split
  · exact .forEach fun e _ => addSchema_distinct e.1 e.2
  · exact .fail _

theorem addSchemas_distinct (v : Value) :
    Ensures HasDistinctProtocols (addSchemas v) fun _ => HasDistinctProtocols := by
  unfold addSchemas
  split
  · exact addSchemaCollection_distinct _
  · exact .forEach fun v _ => addSchemaCollection_distinct v
  · exact .fail _

theorem declareTypes_distinct (entries : Mapping) :
    Ensures HasDistinctProtocols (declareTypes entries) fun _ => HasDistinctProtocols := by
  refine .keep (whenPresent_ensures (addSchemas_distinct _)) fun _ => .except fun types _ => ?_
  refine .keep (onTypes_distinct _) fun _ => .get fun a ha => ?_
  exact .traced fun base _ => .modify fun s hs => hs ▸ ha

theorem declareUses_distinct (entries : Mapping) :
    Ensures HasDistinctProtocols (declareUses entries) fun _ => HasDistinctProtocols := by
  refine .get fun a ha => .traced fun annotationTypes _ => .traced fun schemes _ => ?_
  refine .except fun securedBy _ => .except fun uses _ => .except fun annotations _ => ?_
  exact .modify fun s hs => hs ▸ ha

theorem addResources_distinct (entries : Mapping) :
    Ensures HasDistinctProtocols (addResources entries) fun _ => HasDistinctProtocols := by
  refine .get fun a ha => .bind (.mapM (Q := fun _ => True) fun e _ => ?_) fun resources => ?_
  · exact .traced fun r _ => .pure fun s hs => ⟨trivial, hs⟩
  · exact .modify fun s hs => hs.2 ▸ ha

theorem addEntries_distinct (entries : Mapping) :
    Ensures HasDistinctProtocols (addEntries entries) fun _ => HasDistinctProtocols := by
  refine .keep (describe_distinct entries) fun _ => .keep (declareTypes_distinct entries) fun _ => ?_
  refine .keep (.except fun _ _ => .except fun _ _ => .modify fun _ ha => ha) fun _ => ?_
  refine .keep (declareUses_distinct entries) fun _ => .keep (onTypes_distinct _) fun _ => ?_
  refine .keep (addResources_distinct entries) fun _ => ?_
  exact .get fun a ha => .last fun s hs _ => hs ▸ ha

theorem ofDefinition_distinct {title definition : Value} {registry : Registry} {a : Api}
    (h : (ofDefinition title definition registry).outcome = .ok a) : a.protocols.Nodup := by
  obtain ⟨entries, text, -, -, -, hrun⟩ := ofDefinition_eq_ok h
  have hinitial : HasDistinctProtocols { ofTitle text with types := [] } := List.nodup_nil
  exact addEntries_distinct entries _ hinitial () a hrun

/-! ## Routes -/

theorem protocols_of_mem_routes {a : Api} {t : Table String Route} (h : a.routes = .ok t)
    {route : Route} (hroute : route ∈ t.values) : route.protocols = a.protocols := by
  obtain ⟨base, rfl⟩ := routes_eq_ok h
  have hlast := List.mem_of_find?_eq_some (mem_values_iff.1 hroute)
  have hof := List.mem_reverse.1 hlast
  obtain ⟨r, -, hmem⟩ := List.mem_flatMap.1 hof
  obtain ⟨e, -, rfl⟩ := List.mem_map.1 hmem
  rfl

theorem allResources_afterCalls (a : Api) (calls : List ProtocolCall) :
    (a.afterCalls calls).allResources = a.allResources :=
  congrArg Resource.preorderAll (afterCalls_extends a calls).resources

end Api

/-! ## Methods -/

namespace Method

def protocolName? (v : Value) : Option String := (protocolOf v).toOption.bind Field.text?

/-- Whether elements write protocols, each at most once. -/
structure WritesProtocols (items : List Value) : Prop where
  nodup : (items.map protocolName?).Nodup
  known : ∀ v ∈ items, ∃ p : Protocol, protocolName? v = some p.text

theorem map_protocolName? {items values : List Value} {names : List String}
    (hread : List.Forall₂ (fun item v => protocolOf item = .ok v) items values)
    (htexts : values.mapM Field.text? = some names) :
    items.map protocolName? = names.map some := by
  induction hread generalizing names with
  | nil =>
      obtain rfl := Option.some.inj htexts
      rfl
  | @cons item v items values hitem _ ih =>
      rw [List.mapM_cons] at htexts
      obtain ⟨name, hname, hmore⟩ := Option.bind_eq_some_iff.1 htexts
      obtain ⟨rest, hrest, hnames⟩ := Option.bind_eq_some_iff.1 hmore
      obtain rfl := Option.some.inj hnames
      have hitem : protocolName? item = some name := by
        rw [protocolName?, hitem]
        exact hname
      rw [List.map_cons, List.map_cons, hitem, ih hrest]

theorem ofDefinition_protocols {d : Declarations} {schemes : SecuritySchemes} {verb : String}
    {definition : Value} {entries : Mapping} {m : Method}
    (h : (ofDefinition d schemes verb definition).outcome = .ok m)
    (hentries : definition.optionalEntries = .ok entries) :
    ∃ items, (entries.field "protocols").optionalElements = .ok items ∧
      items.map protocolName? = m.protocols.map some := by
  unfold ofDefinition at h
  rw [hentries] at h
  obtain ⟨_, hpure, h⟩ := Traced.bind_eq_ok_iff.1 h
  obtain rfl := Except.ok.inj hpure
  obtain ⟨headers, -, h⟩ := Traced.bind_eq_ok_iff.1 h
  obtain ⟨queryParameters, -, h⟩ := Traced.bind_eq_ok_iff.1 h
  obtain ⟨values, hvalues, h⟩ := Traced.bind_eq_ok_iff.1 h
  obtain ⟨plain, hplain, h⟩ := Traced.bind_eq_ok_iff.1 h
  obtain ⟨inForce, -, h⟩ := Traced.bind_eq_ok_iff.1 h
  obtain ⟨annotations, -, h⟩ := Traced.bind_eq_ok_iff.1 h
  have hkept : m.protocols = plain.protocols := by
    dsimp only at h
    split at h
    all_goals
      obtain ⟨bodies, -, h⟩ := Traced.bind_eq_ok_iff.1 h
      obtain ⟨responses, -, h⟩ := Traced.bind_eq_ok_iff.1 h
      obtain rfl := Except.ok.inj h
      rfl
  have hread := (Checked.toExcept_eq_ok_iff _ _ _).1 hplain
  simp only [read, Checked.seq_eq_ok_iff, Checked.map_eq_ok_iff] at hread
  obtain ⟨_, names, ⟨_, _, ⟨_, -, rfl⟩, -, rfl⟩, hgiven, rfl⟩ := hread
  have htexts : values.mapM Field.text? = some names := by
    unfold Field.given at hgiven
    split at hgiven
    · next hkind =>
        obtain rfl := Checked.ok.inj hgiven
        exact hkind
    · cases hgiven
  obtain ⟨items, hitems, hvalues⟩ := Except.bind_eq_ok_iff.1 hvalues
  exact ⟨items, hitems, hkept ▸ map_protocolName? (forall₂_of_mapM hvalues) htexts⟩

end Method

namespace Resource

/-- Whether a definition at a URI declares a method of a verb by some entries, at this URI or at one
nested in it. -/
inductive DeclaresMethod : String → Value → String → String → Mapping → Prop
  | here {uri : String} {definition : Value} {entries declared : Mapping} {e : Value × Value}
      (hentries : definition.optionalEntries = .ok entries) (he : e ∈ methodEntries entries)
      (hdeclared : e.2.optionalEntries = .ok declared) :
      DeclaresMethod uri definition uri (Text.upper e.1.shown) declared
  | nested {uri uri' verb : String} {definition : Value} {entries declared : Mapping}
      {e : Value × Value} (hentries : definition.optionalEntries = .ok entries)
      (he : e ∈ nestedEntries entries)
      (h : DeclaresMethod (uri ++ e.1.shown) e.2 uri' verb declared) :
      DeclaresMethod uri definition uri' verb declared

/-- Whether a method has the names of protocols that some entries write. -/
def HasDeclaredProtocols (declared : Mapping) (m : Method) : Prop :=
  ∃ items, (declared.field "protocols").optionalElements = .ok items ∧
    items.map Method.protocolName? = m.protocols.map some

variable {d : Declarations} {inherited : Inherited} {uri relativeUri : String} {definition : Value}

theorem build_declaresMethods {r : Resource}
    (h : (build d inherited uri relativeUri definition).outcome = .ok r) :
    ∀ s ∈ r.preorder, ∀ verb m, s.methods.get? verb = some m → ∃ declared,
      DeclaresMethod uri definition s.uri verb declared ∧ HasDeclaredProtocols declared m := by
  -- by the weight of the definition, which is less for what is nested in it
  generalize hw : definition.weight = w
  induction w using Nat.strongRecOn generalizing definition inherited uri relativeUri r with
  | ind w ih =>
      obtain ⟨entries, r₀, methods, nested, hentries, hhead, hmethods, hnested, rfl⟩ :=
        build_eq_ok h
      intro s hs verb m hm
      rw [preorder_eq] at hs
      cases List.mem_cons.1 hs with
      | inl hroot =>
          subst hroot
          have hrel := get?_methods hmethods verb
          rw [show Table.get? _ verb = some m from hm] at hrel
          obtain ⟨e, he, hdeclares⟩ := exists_of_rel_right hrel
          have hmem := List.mem_reverse.1 (List.mem_of_find?_eq_some he)
          have hverb : Text.upper e.1.shown = verb := by simpa using List.find?_some he
          obtain ⟨declared, -, hdeclared, -⟩ := hdeclares.securitySchemes
          have huri : r₀.uri = uri := (head_isHead hhead).uri
          refine ⟨declared, ?_, Method.ofDefinition_protocols hdeclares.built hdeclared⟩
          rw [← hverb, show Resource.uri _ = uri from huri]
          exact .here hentries hmem hdeclared
      | inr hbelow =>
          obtain ⟨⟨key, child⟩, hchild, hs⟩ := List.mem_flatMap.1 hbelow
          obtain ⟨key', hmem⟩ := Table.mem_ofList hchild
          obtain ⟨e, he, -, hbuild⟩ := exists_of_forall₂_right (readNested_built hnested) hmem
          have hweight := weight_lt_of_optionalEntries hentries (List.mem_filter.1 he).1
          rw [hw] at hweight
          obtain ⟨declared, hdeclares, hprotocols⟩ := ih _ hweight hbuild rfl s hs verb m hm
          exact ⟨declared, .nested hentries he hdeclares, hprotocols⟩

end Resource

theorem areProtocols_iff {items : List Value} {names : List String}
    (h : items.map Method.protocolName? = names.map some) :
    AreProtocols names ↔ Method.WritesProtocols items := by
  have hnodup : (items.map Method.protocolName?).Nodup ↔ names.Nodup := by
    rw [h, List.nodup_map_iff (Option.some_injective String)]
  have hknown : (∀ v ∈ items, ∃ p : Protocol, Method.protocolName? v = some p.text) ↔
      ∀ name ∈ names, name = "HTTP" ∨ name = "HTTPS" := by
    have hall := List.forall_mem_map (f := Method.protocolName?) (l := items)
      (P := fun name? => ∃ p : Protocol, name? = some p.text)
    rw [← hall, h, List.forall_mem_map]
    refine forall₂_congr fun name _ => ?_
    simp only [Option.some.injEq]
    exact Protocol.exists_text_iff name
  exact ⟨fun hp => ⟨hnodup.2 hp.nodup, hknown.2 hp.known⟩,
    fun hw => ⟨hnodup.1 hw.nodup, hknown.1 hw.known⟩⟩

namespace Api

def DeclaresMethod (definition : Value) (uri verb : String) (declared : Mapping) : Prop :=
  ∃ entries, definition.optionalEntries = .ok entries ∧
    ∃ e ∈ resourceEntries entries, Resource.DeclaresMethod e.1 e.2 uri verb declared

theorem ofDefinition_declaresMethods {title definition : Value} {registry : Registry} {a : Api}
    (h : (ofDefinition title definition registry).outcome = .ok a) {r : Resource}
    (hr : r ∈ a.allResources) {verb : String} {m : Method} (hm : r.methods.get? verb = some m) :
    ∃ declared, DeclaresMethod definition r.uri verb declared ∧
      Resource.HasDeclaredProtocols declared m := by
  obtain ⟨entries, hentries, hmade⟩ := ofDefinition_madeOf h
  rw [allResources, Resource.preorderAll_eq] at hr
  obtain ⟨n, hn, hr⟩ := List.mem_flatMap.1 hr
  obtain ⟨e, he, -, hbuild⟩ := exists_of_forall₂_right hmade.resources hn
  have hbuilt := Resource.ofDefinition_build hbuild
  obtain ⟨declared, hdeclares, hprotocols⟩ :=
    Resource.build_declaresMethods hbuilt r hr verb m hm
  exact ⟨declared, ⟨entries, hentries, e, he, hdeclares⟩, hprotocols⟩

/-- After any calls, the protocols of a built API are distinct and only grow at their end, a base
URI changes them only where there are none, and routes have the same ones. The protocols of a method
are what its definition writes, and nothing makes sure that it writes protocols. -/
theorem protocols_closed_unless_declared {title definition : Value} {registry : Registry} {a : Api}
    (h : (ofDefinition title definition registry).outcome = .ok a) (calls : List ProtocolCall) :
    AreProtocols ((a.afterCalls calls).protocols.map Protocol.text) ∧
      (∀ before after, calls = before ++ after →
        (a.afterCalls before).protocols <+: (a.afterCalls calls).protocols) ∧
      (∀ uri, (a.afterCalls calls).protocols ≠ [] →
        ((a.afterCalls calls).afterCall (.setBaseUri uri)).protocols =
          (a.afterCalls calls).protocols) ∧
      (∀ t, (a.afterCalls calls).routes = .ok t → ∀ route ∈ t.values,
        route.protocols = (a.afterCalls calls).protocols) ∧
      ∀ r ∈ (a.afterCalls calls).allResources, ∀ verb m, r.methods.get? verb = some m →
        ∃ declared items, DeclaresMethod definition r.uri verb declared ∧
          (declared.field "protocols").optionalElements = .ok items ∧
          (AreProtocols m.protocols ↔ Method.WritesProtocols items) := by
  have hdistinct := (afterCalls_extends a calls).distinct (ofDefinition_distinct h)
  refine ⟨Protocol.areProtocols hdistinct, ?_, fun uri => setBaseUri_protocols uri, ?_, ?_⟩
  · intro before after hsplit
    rw [hsplit, afterCalls_append]
    exact (afterCalls_extends _ after).grown
  · intro t ht route hroute
    exact protocols_of_mem_routes ht hroute
  · intro r hr verb m hm
    rw [allResources_afterCalls] at hr
    obtain ⟨declared, hdeclares, items, hitems, hnames⟩ := ofDefinition_declaresMethods h hr hm
    exact ⟨declared, items, hdeclares, hitems, areProtocols_iff hnames⟩

/-- Songs served by one protocol, with a method that names it in its own way. -/
def servedSongs : Value :=
  .map [(.text "protocols", .list [.text "http"]), (.text "baseUri", .text "https://songs"),
    (.text "/songs", .map [(.text "get", .map [(.text "protocols", .list [.text "Http"])])])]

/-- A call that fails, between two that do not. -/
def songCalls : List ProtocolCall :=
  [.setBaseUri (.text "https://music"), .addProtocol (.text "ftp"), .addProtocol (.text "https")]

/-- The declared protocol stays in front, and the call that fails changes nothing. -/
theorem protocols_closed_unless_declared_songs :
    ∃ a t, (ofDefinition (.text "Music") servedSongs []).outcome = .ok a ∧
      (a.afterCalls songCalls).routes = .ok t ∧
      (a.afterCalls songCalls).protocols = [.http, .https] ∧
      AreProtocols ((a.afterCalls songCalls).protocols.map Protocol.text) ∧
      ∀ route ∈ t.values, route.protocols = [.http, .https] := by
  have hrun : (ofDefinition (.text "Music") servedSongs []).outcome.toOption.map (fun a =>
      ((a.afterCalls songCalls).protocols, (a.afterCalls songCalls).routes.toOption.isSome)) =
      some ([.http, .https], true) := by
    decide
  obtain ⟨a, ha, heq⟩ := Option.map_eq_some_iff.1 hrun
  obtain ⟨hprotocols, hsome⟩ := Prod.mk.inj heq
  obtain ⟨t, ht⟩ := Option.isSome_iff_exists.1 hsome
  have hroutes := Except.eq_ok_of_toOption ht
  have haccepted := Except.eq_ok_of_toOption ha
  obtain ⟨hclosed, -, -, hserved, -⟩ := protocols_closed_unless_declared haccepted songCalls
  refine ⟨a, t, haccepted, hroutes, hprotocols, hclosed, fun route hroute => ?_⟩
  rw [hserved t hroutes route hroute, hprotocols]

/-- A method that names no protocol of an API. -/
def fileService : Value :=
  .map [(.text "/files", .map
    [(.text "get", .map [(.text "protocols", .list [.text "ftp"])])])]

/-- What a definition writes as a protocol of a method need not be one. -/
theorem not_every_protocol_known :
    ¬ ∀ (title definition : Value) (registry : Registry) (a : Api),
      (ofDefinition title definition registry).outcome = .ok a → ∀ calls,
        AreProtocols ((a.afterCalls calls).protocols.map Protocol.text) ∧
          ∀ r ∈ (a.afterCalls calls).allResources, ∀ verb m, r.methods.get? verb = some m →
            AreProtocols m.protocols := by
  intro hclaim
  have hrun : (ofDefinition (.text "API") fileService []).outcome.toOption.map (fun a =>
      a.allResources.map fun r => (r.methods.get? "GET").map Method.protocols) =
      some [some ["FTP"]] := by
    decide
  obtain ⟨a, ha, hresources⟩ := Option.map_eq_some_iff.1 hrun
  obtain ⟨r, rest, hcons, hr, -⟩ := List.map_eq_cons_iff.1 hresources
  obtain ⟨m, hm, hftp⟩ := Option.map_eq_some_iff.1 hr
  have hmem : r ∈ a.allResources := hcons ▸ List.mem_cons_self
  have hlist := (hclaim _ _ _ a (Except.eq_ok_of_toOption ha) []).2 r hmem "GET" m hm
  have hknown := hlist.known "FTP" (hftp ▸ List.mem_cons_self)
  revert hknown
  decide

end Api

end Raml
