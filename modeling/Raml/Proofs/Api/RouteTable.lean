import Raml.Api.Query
import Raml.Proofs.Api.BuiltResources
import Raml.Proofs.Resource.Templates

/-! # Routes and paths

The table of routes and the lookup of a path both go through the tree of
resources, parents before their children. Where several resources stand at one
path, the lookup ends at the first of them, while of their methods for one verb
the route of the last one counts. So each method has one route at its verb and
path, and the two agree where the first resource of the path is the last one
that has the verb.
-/

namespace Raml

/-! ## Verbs -/

namespace Method

theorem upper_verb {verb : String} (h : verb ∈ verbs) : Text.upper verb = verb := by
  have hall : ∀ verb ∈ verbs, Text.upper verb = verb := by decide
  exact hall verb h

theorem space_not_mem_verb {verb : String} (h : verb ∈ verbs) : ' ' ∉ verb.toList := by
  have hall : ∀ verb ∈ verbs, ' ' ∉ verb.toList := by decide
  exact hall verb h

end Method

theorem Route.key_inj {verb verb' path path' : String} (h : verb ∈ Method.verbs)
    (h' : verb' ∈ Method.verbs) (heq : verb ++ " " ++ path = verb' ++ " " ++ path') :
    verb = verb' ∧ path = path' := by
  have hread : ∀ {verb path : String}, verb ∈ Method.verbs →
      (verb ++ " " ++ path).toList.takeWhile (· ≠ ' ') = verb.toList := fun {verb path} h => by
    have hspace : ∀ c ∈ verb.toList, decide (c ≠ ' ') = true := fun c hc =>
      decide_eq_true fun hc' => Method.space_not_mem_verb h (hc' ▸ hc)
    rw [String.toList_append, String.toList_append, List.append_assoc,
      List.takeWhile_append_of_pos hspace]
    simp
  have hverb : verb = verb' := String.toList_inj.1 ((hread h).symm.trans (heq ▸ hread h'))
  subst hverb
  have hpath := congrArg String.toList heq
  simp only [String.toList_append, List.append_cancel_left_eq] at hpath
  exact ⟨rfl, String.toList_inj.1 hpath⟩

/-! ## Resources -/

namespace Resource

/-- Whether methods stand under names of verbs, each once. -/
structure Keyed (r : Resource) : Prop where
  distinct : Table.Distinct r.methods
  verbs : ∀ verb ∈ Table.keys r.methods, verb ∈ Method.verbs

theorem Makes.keyed {d : Declarations} {inherited : Inherited} {entries : Mapping}
    {head r : Resource} (h : Makes d inherited entries head r) : r.Keyed := by
  obtain ⟨_, _, methods, _, -, hmethods, rfl⟩ := h
  refine ⟨Table.distinct_ofList _, fun verb hverb => ?_⟩
  rw [Table.keys_ofList, List.mem_eraseDups, List.map_map] at hverb
  obtain ⟨m, hm, rfl⟩ := List.mem_map.1 hverb
  obtain ⟨e, he, hdeclared⟩ := exists_of_forall₂_right (readMethods_declaredBy hmethods) hm
  have hentry := (List.mem_filter.1 he).2
  simp only [isVerb, Bool.and_eq_true, List.contains_iff_mem] at hentry
  show m.verb ∈ Method.verbs
  exact hdeclared.verb ▸ hentry.2

theorem Keyed.method_eq_ok {r : Resource} (h : r.Keyed) {verb : String} {m : Method}
    (hm : r.methods.get? verb = some m) : r.method verb = .ok m := by
  have hverb : verb ∈ Table.keys r.methods := by
    rw [← Table.get?_isSome_iff, hm]
    rfl
  rw [method, Method.upper_verb (h.verbs verb hverb), hm]

end Resource

/-- Routes by their keys; of several for one key the last one counts. -/
def Route.byKey (routes : List Route) : Table String Route :=
  Table.ofList (routes.map fun r => (r.key, r))

structure Route.IsOf (route : Route) (r : Resource) : Prop where
  path : route.path = r.uri
  uriParameters : route.uriParameters = r.uriParameters
  method : r.methods.get? route.verb = some route.method

namespace Api

variable {a : Api} {t : Table String Route} {route : Route}

/-- The last of the resources at a path that have a method for a verb. -/
def lastAt (a : Api) (path verb : String) : Option Resource :=
  a.allResources.reverse.find? fun r => r.uri == path && r.methods.has verb

theorem keyed_allResources {title definition : Value} {registry : Registry}
    (h : (ofDefinition title definition registry).outcome = .ok a) :
    ∀ r ∈ a.allResources, r.Keyed :=
  forall_allResources h (I := fun _ => True) trivial fun _ _ _ _ _ hmakes =>
    ⟨trivial, hmakes.keyed⟩

/-! ## The table of routes -/

theorem mem_routesOf {base : Option String} {r : Resource} (hr : r.Keyed) :
    route ∈ a.routesOf base r → route.IsOf r := by
  intro h
  obtain ⟨⟨verb, m⟩, hm, rfl⟩ := List.mem_map.1 h
  exact ⟨rfl, rfl, Table.get?_of_mem hr.distinct hm⟩

theorem exists_mem_routesOf (base : Option String) {r : Resource} {verb : String} {m : Method}
    (h : r.methods.get? verb = some m) :
    ∃ route ∈ a.routesOf base r, route.key = verb ++ " " ++ r.uri := by
  obtain ⟨_, hverb, hmem⟩ := Table.mem_of_get? h
  obtain rfl := eq_of_beq hverb
  exact ⟨_, List.mem_map_of_mem hmem, rfl⟩

/-- Where there are routes, each stands under its key, and of several for one key the last one. -/
theorem routes_eq_ok (h : a.routes = .ok t) :
    ∃ base, t = Route.byKey (a.allResources.flatMap (a.routesOf base)) := by
  unfold routes at h
  split at h
  · obtain ⟨base, -, h⟩ := Except.bind_eq_ok_iff.1 h
    exact ⟨base, (Except.ok.inj h).symm⟩
  · next hnone =>
      refine ⟨none, ?_⟩
      have hempty : ∀ r ∈ a.allResources, a.routesOf none r = [] := by
        simpa [hasMethods, routesOf] using hnone
      rw [← Except.ok.inj h, List.flatMap_eq_nil_iff.2 hempty]
      rfl

theorem get?_byKey (routes : List Route) (key : String) :
    (Route.byKey routes).get? key =
      routes.reverse.find? fun r => r.key == key := by
  rw [Route.byKey, Table.get?_ofList, ← List.map_reverse, List.find?_map, Option.map_map]
  exact congrFun Option.map_id _

theorem mem_values_iff {routes : List Route} :
    route ∈ Table.values (Route.byKey routes) ↔
      (routes.reverse.find? fun r => r.key == route.key) = some route := by
  constructor
  · intro h
    obtain ⟨⟨key, _⟩, hmem, rfl⟩ := List.mem_map.1 h
    have hget : (Route.byKey routes).get? key = _ :=
      Table.get?_of_mem (Table.distinct_ofList _) hmem
    rw [get?_byKey] at hget
    have hkey := List.find?_some hget
    obtain rfl := eq_of_beq hkey
    exact hget
  · intro h
    obtain ⟨key, -, hmem⟩ := Table.mem_of_get? ((get?_byKey routes route.key).trans h)
    exact List.mem_map_of_mem hmem

theorem exists_mem_values {routes : List Route} (h : route ∈ routes) :
    ∃ last ∈ routes, last.key = route.key ∧
      last ∈ Table.values (Route.byKey routes) := by
  have hsome : (routes.reverse.find? fun r => r.key == route.key).isSome = true :=
    List.find?_isSome.2 ⟨route, List.mem_reverse.2 h, beq_self_eq_true _⟩
  obtain ⟨last, hlast⟩ := Option.isSome_iff_exists.1 hsome
  have hkey := List.find?_some hlast
  have hkey : last.key = route.key := eq_of_beq hkey
  exact ⟨last, List.mem_reverse.1 (List.mem_of_find?_eq_some hlast), hkey,
    mem_values_iff.2 (hkey ▸ hlast)⟩

/-- A route of the table is that of the last resource at its path that has its verb. -/
theorem isOf_of_mem_routes (hkeyed : ∀ r ∈ a.allResources, r.Keyed) (h : a.routes = .ok t)
    (hroute : route ∈ t.values) :
    ∃ r, a.lastAt route.path route.verb = some r ∧ route.IsOf r := by
  obtain ⟨base, rfl⟩ := routes_eq_ok h
  have hlast := mem_values_iff.1 hroute
  rw [List.reverse_flatMap, List.find?_flatMap] at hlast
  obtain ⟨after, r, before, hsplit, hfound, hnone⟩ := List.findSome?_eq_some_iff.1 hlast
  have hr : r ∈ a.allResources := List.mem_reverse.1 (hsplit ▸ by simp)
  have hof := mem_routesOf (hkeyed r hr) (List.mem_reverse.1 (List.mem_of_find?_eq_some hfound))
  refine ⟨r, ?_, hof⟩
  rw [lastAt, List.find?_eq_some_iff_append]
  refine ⟨by simp [hof.path, Table.has, hof.method], after, before, hsplit, fun s hs => ?_⟩
  -- a method for the verb at the same path would make a later route of the same key
  by_contra hother
  simp only [Bool.not_eq_true', Bool.not_eq_false, Bool.and_eq_true, beq_iff_eq] at hother
  obtain ⟨huri, hhas⟩ := hother
  obtain ⟨m, hget⟩ := Option.isSome_iff_exists.1 hhas
  obtain ⟨later, hlater, hkey⟩ := exists_mem_routesOf (a := a) base hget
  refine List.find?_eq_none.1 (hnone s hs) later (List.mem_reverse.2 hlater) ?_
  rw [hkey, huri, Route.key, beq_self_eq_true]

theorem existsUnique_route (hkeyed : ∀ r ∈ a.allResources, r.Keyed) (h : a.routes = .ok t)
    {r : Resource} (hr : r ∈ a.allResources) {verb : String} {m : Method}
    (hm : r.methods.get? verb = some m) :
    ∃! route, route ∈ t.values ∧ route.verb = verb ∧ route.path = r.uri := by
  have hverbs : ∀ {r : Resource} {verb m}, r ∈ a.allResources → r.methods.get? verb = some m →
      verb ∈ Method.verbs := fun {r verb m} hr hm =>
    (hkeyed r hr).verbs verb ((Table.get?_isSome_iff _ _).1 (by simp [hm]))
  obtain ⟨base, rfl⟩ := routes_eq_ok h
  obtain ⟨own, hown, hkey⟩ := exists_mem_routesOf (a := a) base hm
  obtain ⟨last, hlast, hsame, hvalues⟩ := exists_mem_values (List.mem_flatMap.2 ⟨r, hr, hown⟩)
  have hkey := hsame.trans hkey
  obtain ⟨s, hs, hlast⟩ := List.mem_flatMap.1 hlast
  have hof := mem_routesOf (hkeyed s hs) hlast
  obtain ⟨hverb, hpath⟩ := Route.key_inj (hverbs hs hof.method) (hverbs hr hm) hkey
  refine ⟨last, ⟨hvalues, hverb, hpath⟩, fun other ⟨hother, hverb', hpath'⟩ => ?_⟩
  have hsame : other.key = last.key := by rw [Route.key, hverb', hpath', Route.key, hverb, hpath]
  have hfound := mem_values_iff.1 hother
  rw [hsame, mem_values_iff.1 hvalues] at hfound
  exact (Option.some.inj hfound).symm

theorem exists_routes (h : a.baseUri = .null ∨ ∃ uri, a.baseUri = .text uri) :
    ∃ t, a.routes = .ok t := by
  have hurl : ∃ url base, a.baseUrl = .ok url ∧ Field.optional Field.text? url = some base := by
    unfold baseUrl
    rcases h with h | ⟨uri, h⟩
    · refine ⟨.null, none, ?_, rfl⟩
      split
      · simp [h, Value.isEmpty]
      · exact congrArg _ h
    · rw [h]
      split
      · split
        · exact ⟨_, _, rfl, rfl⟩
        · exact ⟨_, _, rfl, rfl⟩
      · exact ⟨_, _, rfl, rfl⟩
  obtain ⟨url, base, hurl, hbase⟩ := hurl
  unfold routes
  split
  · refine ⟨_, Except.bind_eq_ok_iff.2 ⟨base, Except.bind_eq_ok_iff.2 ⟨url, hurl, ?_⟩, rfl⟩⟩
    simp [Field.given, hbase, Checked.toExcept]
  · exact ⟨[], rfl⟩

/-! ## The lookup of a path -/

theorem resourceByPath_eq_ok_iff {path : String} (h : '?' ∉ path.toList) {r : Resource} :
    a.resourceByPath path = .ok r ↔ (a.allResources.find? fun r => r.uri == path) = some r := by
  unfold resourceByPath
  dsimp only
  rw [withoutQuery_of_not_mem h]
  cases a.allResources.find? fun r => r.uri == path <;> simp

theorem exists_resourceByPath {path verb : String} (h : '?' ∉ path.toList) {r : Resource}
    (hlast : a.lastAt path verb = some r) : ∃ first, a.resourceByPath path = .ok first := by
  have hr := List.find?_some hlast
  have hsome : (a.allResources.find? fun r => r.uri == path).isSome = true :=
    List.find?_isSome.2 ⟨r, List.mem_reverse.1 (List.mem_of_find?_eq_some hlast),
      (Bool.and_eq_true_iff.1 hr).1⟩
  obtain ⟨first, hfirst⟩ := Option.isSome_iff_exists.1 hsome
  exact ⟨first, (resourceByPath_eq_ok_iff h).2 hfirst⟩

/-- Each route is that of the last resource at its path that has its verb, and the lookup of the
path leads to the same method and parameters where it ends at this resource. Each method has one
route at its verb and path, which is its own where its resource is the last there that has the
verb. -/
theorem routes_match_paths {title definition : Value} {registry : Registry}
    (h : (ofDefinition title definition registry).outcome = .ok a) :
    ((a.baseUri = .null ∨ ∃ uri, a.baseUri = .text uri) → ∃ t, a.routes = .ok t) ∧
      ∀ t, a.routes = .ok t →
        (∀ route ∈ t.values, ∃ last, a.lastAt route.path route.verb = some last ∧
          route.IsOf last ∧ ('?' ∉ route.path.toList →
            ∃ first, a.resourceByPath route.path = .ok first ∧
              (first = last → first.method route.verb = .ok route.method ∧
                first.uriParameters = route.uriParameters))) ∧
        ∀ r ∈ a.allResources, ∀ verb m, r.methods.get? verb = some m →
          (∃! route, route ∈ t.values ∧ route.verb = verb ∧ route.path = r.uri) ∧
            (a.lastAt r.uri verb = some r → ∃ route ∈ t.values, route.verb = verb ∧
              route.path = r.uri ∧ route.method = m ∧ route.uriParameters = r.uriParameters) := by
  have hkeyed := keyed_allResources h
  refine ⟨exists_routes, fun t ht => ⟨fun route hroute => ?_, fun r hr verb m hm => ?_⟩⟩
  · obtain ⟨last, hlast, hof⟩ := isOf_of_mem_routes hkeyed ht hroute
    refine ⟨last, hlast, hof, fun hquery => ?_⟩
    obtain ⟨first, hfirst⟩ := exists_resourceByPath hquery hlast
    refine ⟨first, hfirst, ?_⟩
    rintro rfl
    have hmem := List.mem_reverse.1 (List.mem_of_find?_eq_some hlast)
    exact ⟨(hkeyed first hmem).method_eq_ok hof.method, hof.uriParameters.symm⟩
  · have hunique := existsUnique_route hkeyed ht hr hm
    refine ⟨hunique, fun hlast => ?_⟩
    obtain ⟨route, hroute, rfl, hpath⟩ := hunique.exists
    obtain ⟨last, hlast', hof⟩ := isOf_of_mem_routes hkeyed ht hroute
    rw [hpath, hlast] at hlast'
    obtain rfl := Option.some.inj hlast'
    have hmethod := Option.some.inj (hof.method.symm.trans hm)
    exact ⟨route, hroute, rfl, hpath, hmethod, hof.uriParameters⟩

def songs : Value :=
  .map [(.text "/songs", .map
    [(.text "get", .null), (.text "/\x7bid\x7d", .map [(.text "get", .null)])])]

/-- The route of one song leads to the same method as the lookup of its path. -/
theorem routes_match_paths_songs :
    ∃ a t r, (ofDefinition (.text "Music") songs []).outcome = .ok a ∧ a.routes = .ok t ∧
      a.resourceByPath "/songs/\x7bid\x7d" = .ok r ∧
      ∃ route ∈ t.values, route.path = "/songs/\x7bid\x7d" ∧ r.method "GET" = .ok route.method := by
  have hrun : (ofDefinition (.text "Music") songs []).outcome.toOption.map (fun a =>
      (a.baseUri.isNull, a.allResources.map fun r => (r.uri, Table.keys r.methods))) =
      some (true, [("/songs", ["GET"]), ("/songs/\x7bid\x7d", ["GET"])]) := by
    decide +kernel
  obtain ⟨a, ha, heq⟩ := Option.map_eq_some_iff.1 hrun
  have haccepted := Except.eq_ok_of_toOption ha
  obtain ⟨hbase, htable⟩ := routes_match_paths haccepted
  obtain ⟨hnull, hall⟩ := Prod.mk.inj heq
  obtain ⟨r₁, rest, hcons, h₁, hrest⟩ := List.map_eq_cons_iff.1 hall
  obtain ⟨r₂, _, rfl, h₂, hnil⟩ := List.map_eq_cons_iff.1 hrest
  obtain rfl := List.map_eq_nil_iff.1 hnil
  obtain ⟨huri₁, -⟩ := Prod.mk.inj h₁
  obtain ⟨huri₂, hkeys⟩ := Prod.mk.inj h₂
  have hnull : a.baseUri = .null := by
    cases hvalue : a.baseUri <;> first | rfl | simp [hvalue, Value.isNull] at hnull
  have hget : (r₂.methods.get? "GET").isSome = true := by
    rw [Table.get?_isSome_iff, hkeys]
    simp
  obtain ⟨m, hm⟩ := Option.isSome_iff_exists.1 hget
  obtain ⟨t, ht⟩ := hbase (.inl hnull)
  obtain ⟨hroutes, hmethods⟩ := htable t ht
  obtain ⟨route, ⟨hroute, hverb, hpath⟩, -⟩ := (hmethods r₂ (by simp [hcons]) "GET" m hm).1
  obtain ⟨last, hlast, -, hlookup⟩ := hroutes route hroute
  rw [huri₂] at hpath
  rw [hpath, hverb] at hlast hlookup
  obtain ⟨first, hfirst, hsame⟩ := hlookup (by decide)
  have hfound := (resourceByPath_eq_ok_iff (by decide)).1 hfirst
  have hfirst₂ : r₂ = first := by simpa [hcons, huri₁, huri₂] using hfound
  have hlast₂ : r₂ = last := by simpa [lastAt, hcons, huri₂, Table.has, hget] using hlast
  obtain ⟨hmethod, -⟩ := hsame (hfirst₂.symm.trans hlast₂)
  exact ⟨a, t, first, haccepted, ht, hfirst, route, hroute, hpath, hmethod⟩

def samePath : Value :=
  .map
    [(.text "/a", .map [(.text "/b", .map
      [(.text "get", .map [(.text "description", .text "nested")])])]),
    (.text "/a/b", .map [(.text "get", .map [(.text "description", .text "top")])])]

/-- The route of a path may be that of another resource than the one that is looked up there. -/
theorem not_every_route_matches :
    ¬ ∀ (title definition : Value) (registry : Registry) (a : Api),
      (ofDefinition title definition registry).outcome = .ok a →
        ∃ t, a.routes = .ok t ∧
          (∀ route ∈ t.values, ∃ r, a.resourceByPath route.path = .ok r ∧
            r.method route.verb = .ok route.method ∧ r.uriParameters = route.uriParameters) ∧
          ∀ r ∈ a.allResources, ∀ verb m, r.methods.get? verb = some m →
            ∃! route, route ∈ t.values ∧ route.verb = verb ∧ route.path = r.uri ∧
              route.method = m := by
  intro hclaim
  have hrun : (ofDefinition (.text "API") samePath []).outcome.toOption.map (fun a =>
      a.routes.toOption.map fun t => t.values.map fun route =>
        (route.path, route.verb, route.method.description)) =
      some (some [("/a/b", "GET", some "top")]) := by
    decide +kernel
  have hfound : ((ofDefinition (.text "API") samePath []).outcome.toOption.bind fun a =>
      (a.resourceByPath "/a/b").toOption.bind fun r =>
        (r.method "GET").toOption.bind fun m => m.description) = some "nested" := by
    decide +kernel
  obtain ⟨a, ha, htable⟩ := Option.map_eq_some_iff.1 hrun
  obtain ⟨t, ht, hroutes, -⟩ := hclaim _ _ _ a (Except.eq_ok_of_toOption ha)
  rw [ht] at htable
  obtain ⟨route, rest, hcons, hroute, -⟩ := List.map_eq_cons_iff.1 (Option.some.inj htable)
  obtain ⟨r, hr, hmethod, -⟩ := hroutes route (hcons ▸ List.mem_cons_self)
  simp only [Prod.mk.injEq] at hroute
  obtain ⟨hpath, hverb, hdescription⟩ := hroute
  rw [hpath] at hr
  rw [hverb] at hmethod
  rw [ha, Option.bind_some, hr] at hfound
  simp [Except.toOption, hmethod, hdescription] at hfound

end Api

end Raml
