import Raml.Proofs.Api.DeclaredTypes
import Raml.Proofs.DataType.Twins
import Raml.Proofs.Resource.Tree

/-! # What secures a resource

An entry of a list stands for anonymous access or names a declared scheme, with
settings of its own or without. A list is resolved to the schemes that its
entries stand for, and of the entries with one key the last decides. The
anonymous scheme has a key like any other, and a scheme that is declared under
that key is not told from it.
-/

namespace Raml

namespace SecurityScheme

theorem isAnonymous_iff {s : SecurityScheme} : s.isAnonymous = true ↔ s.key = anonymousKey :=
  beq_iff_eq

theorem withSettings_eq_ok_iff {s t : SecurityScheme} {overrides : Value} :
    s.withSettings overrides = .ok t ↔ ∃ settings, overrides.optionalEntries = .ok settings ∧
      t = { s with settings := Table.overlay s.settings settings } := by
  unfold withSettings
  cases overrides.optionalEntries with
  | error e => simp
  | ok settings => simp [eq_comm]

end SecurityScheme

namespace SecuritySchemes

/-! ## Declared schemes -/

/-- What declared schemes satisfy: each is stored under its own key, and settings stand under
texts. -/
structure Declared (schemes : SecuritySchemes) : Prop where
  key : ∀ {name : String} {s : SecurityScheme}, schemes.get? name = some s → s.key = name
  settings : ∀ {name : String} {s : SecurityScheme}, schemes.get? name = some s →
    ∀ k ∈ Table.keys s.settings, ∃ word, k = .text word

/-- Schemes that are written one after the other, each under its own key: the last of those with a
key is found. -/
theorem get?_ofList_keyed (members : List SecurityScheme) (key : String) :
    (Table.ofList (members.map fun s => (s.key, s))).get? key =
      members.reverse.find? (·.key == key) := by
  rw [Table.get?_ofList, ← List.map_reverse, List.find?_map, Option.map_map]
  simp [Function.comp_def]

theorem declared_of_mem {schemes : SecuritySchemes} (hkey : ∀ e ∈ schemes, e.2.key = e.1)
    (hsettings : ∀ e ∈ schemes, ∀ k ∈ Table.keys e.2.settings, ∃ word, k = .text word) :
    Declared schemes where
  key hs := by
    obtain ⟨name, hname, hmem⟩ := Table.mem_of_get? hs
    obtain rfl := eq_of_beq hname
    exact hkey _ hmem
  settings hs := by
    obtain ⟨name, hname, hmem⟩ := Table.mem_of_get? hs
    exact hsettings _ hmem

end SecuritySchemes

theorem Field.textKeyed?_keys {entries m : Mapping} (h : Field.textKeyed? (.map entries) = some m) :
    ∀ k ∈ Table.keys m, ∃ word, k = .text word := by
  simp only [Field.textKeyed?, Option.ite_none_right_eq_some, Option.some.injEq,
    List.all_eq_true] at h
  obtain ⟨htexts, rfl⟩ := h
  intro k hk
  obtain ⟨v, hv⟩ := Table.mem_keys.1 hk
  have htext := htexts _ hv
  cases k with
  | text word => exact ⟨word, rfl⟩
  | _ => simp [Value.text?] at htext

theorem Field.given_eq_ok {α : Type} {key : String} {v : Value} {kind : Value → Option α} {a : α}
    (h : given key v kind = .ok a) : kind v = some a := by
  unfold given at h
  split at h
  · next hkind => rw [hkind, Checked.ok.inj h]
  · cases h

theorem SecurityScheme.read_key {key : Value} {d : Mapping} {describedBy : SecurityDescription}
    {settings : Mapping} : (read key d describedBy settings).Ensures fun s =>
      Field.text? key = some s.key := by
  intro s hs
  simp only [read, Checked.seq_eq_ok_iff, Checked.map_eq_ok_iff] at hs
  obtain ⟨_, _, ⟨_, _, ⟨_, _, ⟨_, _, ⟨_, _, ⟨word, hword, rfl⟩, -, rfl⟩, -, rfl⟩, -, rfl⟩, -, rfl⟩,
    -, rfl⟩ := hs
  exact Field.given_eq_ok hword

theorem SecurityScheme.read_settings {key : Value} {d : Mapping}
    {describedBy : SecurityDescription} {settings : Mapping} :
    (read key d describedBy settings).Ensures fun s =>
      ∀ k ∈ Table.keys s.settings, ∃ word, k = .text word := by
  refine .seq (Q := fun m => ∀ k ∈ Table.keys m, ∃ word, k = .text word) (fun m hm => ?_) ?_
  · exact Field.textKeyed?_keys (Field.given_eq_ok hm)
  iterate 4 refine .skip ?_
  exact .map _ fun _ _ _ _ _ _ h => h

theorem SecurityScheme.ofDefinition_ensures (registry : Option Registry) (key definition : Value) :
    (ofDefinition registry key definition).Ensures fun s => Field.text? key = some s.key ∧
      ∀ k ∈ Table.keys s.settings, ∃ word, k = .text word := by
  unfold ofDefinition
  split
  all_goals exact .then fun d => .then fun _ => .then fun _ =>
    .ofChecked fun s hs => ⟨read_key s hs, read_settings s hs⟩

theorem Api.readSecuritySchemes_declared (registry : Registry) {v : Value} {entries : Mapping}
    (hv : v.optionalEntries = .ok entries) (htexts : ∀ e ∈ entries, ∃ word, e.1 = .text word) :
    (readSecuritySchemes registry v).Ensures SecuritySchemes.Declared := by
  intro schemes hschemes
  have hall := Traced.Ensures.records (R := fun e => e.2.key = e.1 ∧
    ∀ k ∈ Table.keys e.2.settings, ∃ word, k = .text word) (fun read hread e he s hs => by
      obtain rfl := Except.ok.inj (hv.symm.trans hread)
      obtain ⟨word, hword⟩ := htexts e he
      obtain ⟨hkey, hsettings⟩ := SecurityScheme.ofDefinition_ensures (some registry) e.1 e.2 s hs
      rw [hword] at hkey ⊢
      exact ⟨(Option.some.inj hkey).symm, hsettings⟩) schemes hschemes
  exact SecuritySchemes.declared_of_mem (fun e he => (hall e he).1) fun e he => (hall e he).2

namespace SecuritySchemes

/-! ## Entries -/

inductive Entry where
  | anonymous
  | named (key : String) (overrides : Mapping)

namespace Entry

def key : Entry → String
  | anonymous => SecurityScheme.anonymousKey
  | named key _ => key

/-- The name in the entry, if no scheme is declared under it. -/
def undeclared? (schemes : SecuritySchemes) : Entry → Option String
  | anonymous => none
  | named key _ => if schemes.has key then none else some key

/-- The values that an entry is written as: nothing, a name alone, or a mapping whose first key is
the name and has the settings under it. -/
inductive Writes : Entry → Value → Prop
  | anonymous {v : Value} (h : v.isEmpty = true) : Writes anonymous v
  | name {name : Value} {key : String} (hname : nameOf? name = some key)
      (h : name.isEmpty = false) : Writes (named key []) name
  | narrowed {name : Value} {key : String} (hname : nameOf? name = some key)
      {overrides : Value} {settings rest : Mapping} (h : overrides.optionalEntries = .ok settings) :
      Writes (named key settings) (.map ((name, overrides) :: rest))

variable {schemes : SecuritySchemes}

/-- A value is written for one entry at most. -/
theorem Writes.unique {e e' : Entry} {v : Value} (h : e.Writes v) (h' : e'.Writes v) : e = e' := by
  cases h with
  | anonymous hempty =>
      cases h' with
      | anonymous => rfl
      | name _ hne => simp [hempty] at hne
      | narrowed => simp [Value.isEmpty] at hempty
  | name hname hne =>
      cases h' with
      | anonymous hempty => simp [hempty] at hne
      | name hname' => rw [Option.some.inj (hname.symm.trans hname')]
      | narrowed => cases hname
  | narrowed hname hsettings =>
      cases h' with
      | anonymous hempty => simp [Value.isEmpty] at hempty
      | name hname' => cases hname'
      | narrowed hname' hsettings' =>
          rw [Option.some.inj (hname.symm.trans hname'),
            Except.ok.inj (hsettings.symm.trans hsettings')]

theorem Writes.key_eq_anonymousKey_iff {e : Entry} {v : Value} (h : e.Writes v) :
    e.key = SecurityScheme.anonymousKey ↔ v.isEmpty = true ∨
      ∃ overrides, (named SecurityScheme.anonymousKey overrides).Writes v := by
  constructor
  · intro hkey
    cases e with
    | anonymous =>
        cases h with
        | anonymous hempty => exact .inl hempty
    | named key overrides =>
        obtain rfl := hkey
        exact .inr ⟨overrides, h⟩
  · rintro (hempty | ⟨overrides, hnamed⟩)
    · rw [h.unique (.anonymous hempty)]
      rfl
    · rw [h.unique hnamed]
      rfl

inductive StandsFor (schemes : SecuritySchemes) : Entry → SecurityScheme → Prop
  | anonymous : StandsFor schemes anonymous .anonymous
  | named {key : String} {overrides : Mapping} {s : SecurityScheme}
      (h : schemes.get? key = some s) :
      StandsFor schemes (named key overrides)
        { s with settings := Table.overlay s.settings overrides }

theorem StandsFor.key_eq (hd : schemes.Declared) {e : Entry} {s : SecurityScheme}
    (h : e.StandsFor schemes s) : s.key = e.key := by
  cases h with
  | anonymous => rfl
  | named hs => exact (hd.key hs :)

theorem exists_standsFor {e : Entry} (h : e.undeclared? schemes = none) :
    ∃ s, e.StandsFor schemes s := by
  cases e with
  | anonymous => exact ⟨_, .anonymous⟩
  | named key overrides =>
      have hhas : schemes.has key = true := by simpa [undeclared?] using h
      obtain ⟨s, hs⟩ := Option.isSome_iff_exists.1 hhas
      exact ⟨_, .named hs⟩

end Entry

variable {schemes : SecuritySchemes}

theorem find_eq_ok_iff {name : Value} {s : SecurityScheme} :
    schemes.find name = .ok s ↔ ∃ key, nameOf? name = some key ∧ schemes.get? key = some s := by
  unfold find
  cases nameOf? name with
  | none => simp
  | some key => cases hs : schemes.get? key <;> simp [hs]

theorem ofEntry_name {name : Value} {key : String} (hname : nameOf? name = some key)
    (hempty : name.isEmpty = false) : schemes.ofEntry name = schemes.find name := by
  unfold ofEntry
  rw [if_neg (by simp [hempty])]
  split
  · cases hname
  · rfl

theorem ofEntry_eq_ok_iff {v : Value} {s : SecurityScheme} :
    schemes.ofEntry v = .ok s ↔ ∃ e : Entry, e.Writes v ∧ e.StandsFor schemes s := by
  constructor
  · intro h
    unfold ofEntry at h
    split at h
    · next hempty =>
        obtain rfl := Except.ok.inj h
        exact ⟨.anonymous, .anonymous hempty, .anonymous⟩
    · next hempty =>
        split at h
        · obtain ⟨own, hown, hlaid⟩ := Except.bind_eq_ok_iff.1 h
          obtain ⟨key, hname, hkey⟩ := find_eq_ok_iff.1 hown
          obtain ⟨settings, hsettings, rfl⟩ := SecurityScheme.withSettings_eq_ok_iff.1 hlaid
          exact ⟨.named key settings, .narrowed hname hsettings, .named hkey⟩
        · obtain ⟨key, hname, hkey⟩ := find_eq_ok_iff.1 h
          exact ⟨.named key [], .name hname (by simpa using hempty), .named hkey⟩
  · rintro ⟨e, hw, hs⟩
    cases hs with
    | anonymous =>
        cases hw with
        | anonymous hempty => simp [ofEntry, hempty]
    | named hkey =>
        cases hw with
        | name hname hempty =>
            rw [ofEntry_name hname hempty]
            exact find_eq_ok_iff.2 ⟨_, hname, hkey⟩
        | narrowed hname hsettings =>
            exact Except.bind_eq_ok_iff.2 ⟨_, find_eq_ok_iff.2 ⟨_, hname, hkey⟩,
              SecurityScheme.withSettings_eq_ok_iff.2 ⟨_, hsettings, rfl⟩⟩

theorem ofEntry_undeclared {e : Entry} {v : Value} (hw : e.Writes v) {name : String}
    (h : e.undeclared? schemes = some name) :
    schemes.ofEntry v = .error (.undefinedScheme name) := by
  cases e with
  | anonymous => cases h
  | named key overrides =>
      simp only [Entry.undeclared?, Option.ite_none_left_eq_some, Option.some.injEq] at h
      obtain ⟨habsent, rfl⟩ := h
      have hfind : ∀ {name : Value}, nameOf? name = some key →
          schemes.find name = .error (.undefinedScheme key) := fun hname => by
        simp [find, hname, Option.not_isSome_iff_eq_none.1 habsent]
      cases hw with
      | name hname hempty => rw [ofEntry_name hname hempty, hfind hname]
      | narrowed hname hsettings => simp only [ofEntry, Value.isEmpty, hfind hname]; rfl

/-! ## Lists of entries -/

theorem members_of_resolve {v : Value} {found : SecuritySchemes} (h : schemes.resolve v = .ok found) :
    ∃ members : List SecurityScheme, found = Table.ofList (members.map fun s => (s.key, s)) ∧
      List.Forall₂ (fun entry s => ∃ e : Entry, e.Writes entry ∧ e.StandsFor schemes s)
        (entriesOf v) members := by
  obtain ⟨members, hmembers, h⟩ := Except.bind_eq_ok_iff.1 h
  obtain rfl := Except.ok.inj h
  exact ⟨members, rfl, (forall₂_of_mapM hmembers).imp fun _ _ => ofEntry_eq_ok_iff.1⟩

/-- A list is read entry by entry, up to the first that names no declared scheme. -/
theorem mapM_ofEntry (schemes : SecuritySchemes) {es : List Entry} {vs : List Value}
    (hw : List.Forall₂ Entry.Writes es vs) :
    (∃ name, es.findSome? (·.undeclared? schemes) = some name ∧
      vs.mapM schemes.ofEntry = .error (.undefinedScheme name)) ∨
    (es.findSome? (·.undeclared? schemes) = none ∧
      ∃ members, vs.mapM schemes.ofEntry = .ok members ∧
        List.Forall₂ (Entry.StandsFor schemes) es members) := by
  induction hw with
  | nil => exact .inr ⟨rfl, [], rfl, .nil⟩
  | @cons e v es vs hev _ ih =>
      rw [List.mapM_cons, List.findSome?_cons]
      cases hname : e.undeclared? schemes with
      | some name => exact .inl ⟨name, rfl, by rw [ofEntry_undeclared hev hname]; rfl⟩
      | none =>
          obtain ⟨s, hs⟩ := Entry.exists_standsFor hname
          rw [ofEntry_eq_ok_iff.2 ⟨e, hev, hs⟩]
          rcases ih with ⟨name, hfirst, hrest⟩ | ⟨hnone, members, hrest, hmembers⟩
          · exact .inl ⟨name, hfirst, by rw [hrest]; rfl⟩
          · exact .inr ⟨hnone, s :: members, by rw [hrest]; rfl, .cons hs hmembers⟩

/-- What is laid over the settings of a declared scheme counts, and what it leaves out stays. -/
theorem Declared.get?_overlay (hd : schemes.Declared) {name : String} {s : SecurityScheme}
    (hs : schemes.get? name = some s) {overrides : Mapping} (hdict : overrides.IsDict)
    (k : Value) : (Table.overlay s.settings overrides).get? k =
      (overrides.get? k).or (s.settings.get? k) := by
  refine Table.get?_overlay (fun k hk => ?_) hdict.regular hdict.distinct k
  obtain ⟨word, rfl⟩ := hd.settings hs k hk
  exact (Value.Keyable.plain rfl).regular

/-- A list of entries fails at the first that names no declared scheme, and at nothing else. Otherwise
it has the keys of its entries, each at its first place, and the last entry with a key decides what
is found there: the anonymous scheme, or the declared one with the settings of that entry laid over
its own. -/
theorem resolve_by_last_entries (hd : schemes.Declared) {es : List Entry} {vs : List Value}
    (hw : List.Forall₂ Entry.Writes es vs)
    (hdict : ∀ key overrides, Entry.named key overrides ∈ es → overrides.IsDict) :
    (∀ name, schemes.resolve (.list vs) = .error (.undefinedScheme name) ↔
      es.findSome? (·.undeclared? schemes) = some name) ∧
    ((∀ e ∈ es, e.undeclared? schemes = none) →
      ∃ found, schemes.resolve (.list vs) = .ok found ∧
        Table.keys found = (es.map Entry.key).eraseDups ∧
        ∀ key e, es.reverse.find? (·.key == key) = some e →
          match e with
          | .anonymous => found.get? key = some .anonymous
          | .named _ overrides => ∃ s settings, schemes.get? key = some s ∧
              found.get? key = some { s with settings } ∧
              ∀ k, settings.get? k = (overrides.get? k).or (s.settings.get? k)) := by
  rcases mapM_ofEntry schemes hw with ⟨name, hfirst, hrun⟩ | ⟨hnone, members, hrun, hmembers⟩
  · have hresolve : schemes.resolve (.list vs) = .error (.undefinedScheme name) := by
      simp only [resolve, entriesOf, hrun]
      rfl
    refine ⟨fun other => by simp [hresolve, hfirst], fun hdeclared => ?_⟩
    rw [List.findSome?_eq_none_iff.2 hdeclared] at hfirst
    cases hfirst
  · have hresolve : schemes.resolve (.list vs) =
        .ok (Table.ofList (members.map fun s => (s.key, s))) := by
      simp only [resolve, entriesOf, hrun]
      rfl
    refine ⟨fun other => by simp [hresolve, hnone], fun _ => ⟨_, hresolve, ?_, ?_⟩⟩
    · have hkeys : members.map SecurityScheme.key = es.map Entry.key :=
        map_eq_of_forall₂ (hmembers.imp fun _ _ h => h.key_eq hd)
      rw [Table.keys_ofList, List.map_map, ← hkeys]
      rfl
    · intro key e hlast
      -- the entries and the schemes that they stand for are searched side by side
      have hrel := find?_rel (List.rel_reverse hmembers) (f := fun e => e.key == key)
        (g := fun s => s.key == key) fun e s h => by rw [h.key_eq hd]
      rw [hlast] at hrel
      obtain ⟨s, hs, hstands, hkey⟩ := exists_of_rel hrel
      rw [← get?_ofList_keyed] at hs
      cases hstands with
      | anonymous => exact hs
      | @named name overrides own hown =>
          have hname : name = key := by rw [← hd.key hown]; simpa using hkey
          subst hname
          have hmem := List.mem_reverse.1 (List.mem_of_find?_eq_some hlast)
          exact ⟨own, _, hown, hs, hd.get?_overlay hown (hdict _ _ hmem)⟩

def signingAndBasic : SecuritySchemes :=
  [("signing", ⟨"signing", some "x-signing", some "signing", none, .empty,
      [(.text "algorithm", .text "HS256"), (.text "header", .text "X-Signature")]⟩),
    ("basic", ⟨"basic", some "Basic Authentication", some "basic", none, .empty, []⟩)]

theorem signingAndBasic_declared : signingAndBasic.Declared := by
  refine declared_of_mem (by decide) fun e he k hk => ?_
  simp only [signingAndBasic, List.mem_cons, List.not_mem_nil, or_false] at he
  rcases he with rfl | rfl
  · simp only [Table.keys, List.map_cons, List.map_nil, List.mem_cons, List.not_mem_nil,
      or_false] at hk
    rcases hk with rfl | rfl
    · exact ⟨_, rfl⟩
    · exact ⟨_, rfl⟩
  · cases hk

def setting (key word : String) : Mapping := Mapping.setField [] key (.text word)

theorem setting_isDict (key word : String) : (setting key word).IsDict := .setField .nil _ _

/-- The last entry for a scheme decides what its settings are, where the first has put it. -/
theorem resolve_by_last_entries_signing : ∃ found,
    signingAndBasic.resolve (.list [.map [(.text "signing", .map (setting "algorithm" "RS256"))],
      .null, .text "basic", .map [(.text "signing", .map (setting "header" "X-Other"))]]) =
        .ok found ∧
    Table.keys found = ["signing", "null", "basic"] ∧
    ∃ s, found.get? "signing" = some s ∧ s.type = some "x-signing" ∧
      s.settings.get? (.text "algorithm") = some (.text "HS256") ∧
      s.settings.get? (.text "header") = some (.text "X-Other") := by
  have hw : List.Forall₂ Entry.Writes
      [.named "signing" (setting "algorithm" "RS256"), .anonymous, .named "basic" [],
        .named "signing" (setting "header" "X-Other")]
      [.map [(.text "signing", .map (setting "algorithm" "RS256"))], .null, .text "basic",
        .map [(.text "signing", .map (setting "header" "X-Other"))]] :=
    .cons (.narrowed rfl rfl) (.cons (.anonymous rfl) (.cons (.name rfl (by decide))
      (.cons (.narrowed rfl rfl) .nil)))
  obtain ⟨found, hfound, hkeys, hlast⟩ := (resolve_by_last_entries signingAndBasic_declared hw
    fun key overrides h => by
      simp only [List.mem_cons, Entry.named.injEq, List.not_mem_nil, or_false, reduceCtorEq,
        false_or] at h
      rcases h with ⟨-, rfl⟩ | ⟨-, rfl⟩ | ⟨-, rfl⟩
      · exact setting_isDict _ _
      · exact .nil
      · exact setting_isDict _ _).2 (by decide)
  obtain ⟨s, settings, hs, hget, hsettings⟩ := hlast "signing" _ rfl
  obtain rfl := Option.some.inj hs
  exact ⟨found, hfound, hkeys.trans (by decide), _, hget, rfl, hsettings _, hsettings _⟩

/-! ## Anonymous access -/

theorem mem_of_mem_values {members : List SecurityScheme} {s : SecurityScheme}
    (h : s ∈ (Table.ofList (members.map fun s => (s.key, s))).values) : s ∈ members := by
  obtain ⟨⟨key, s⟩, hmem, rfl⟩ := List.mem_map.1 h
  obtain ⟨key', hmem⟩ := Table.mem_ofList hmem
  obtain ⟨t, ht, heq⟩ := List.mem_map.1 hmem
  obtain rfl := (Prod.mk.inj heq).2
  exact ht

theorem exists_found {members : List SecurityScheme} {s : SecurityScheme} (hs : s ∈ members) :
    ∃ t ∈ members, t.key = s.key ∧
      (Table.ofList (members.map fun s => (s.key, s))).get? s.key = some t := by
  rw [get?_ofList_keyed]
  cases hfound : members.reverse.find? (·.key == s.key) with
  | none =>
      rw [List.find?_eq_none] at hfound
      simpa using hfound s (List.mem_reverse.2 hs)
  | some t =>
      exact ⟨t, List.mem_reverse.1 (List.mem_of_find?_eq_some hfound),
        by simpa using List.find?_some hfound, rfl⟩

theorem mem_values_of_get? {found : SecuritySchemes} {key : String} {s : SecurityScheme}
    (h : found.get? key = some s) : s ∈ found.values := by
  obtain ⟨key', -, hmem⟩ := Table.mem_of_get? h
  exact List.mem_map_of_mem hmem

/-- Anonymous access is granted by an empty entry or by one that names the scheme declared under the
key of the anonymous scheme, and by nothing else. A declared scheme that an entry names is found with
nothing but its settings changed, unless it is declared under that key and there is an empty
entry. -/
theorem anonymous_iff_empty_or_named_null (hd : schemes.Declared) {v : Value}
    {found : SecuritySchemes} (h : schemes.resolve v = .ok found) :
    ((∃ s ∈ found.values, s.isAnonymous = true) ↔
      ∃ entry ∈ entriesOf v, entry.isEmpty = true ∨
        ∃ overrides, (Entry.named SecurityScheme.anonymousKey overrides).Writes entry) ∧
    ∀ entry ∈ entriesOf v, ∀ key overrides s, (Entry.named key overrides).Writes entry →
      schemes.get? key = some s →
      (key = SecurityScheme.anonymousKey → ∀ other ∈ entriesOf v, other.isEmpty = false) →
      ∃ settings, found.get? key = some { s with settings } := by
  obtain ⟨members, rfl, hall⟩ := members_of_resolve h
  refine ⟨⟨?_, ?_⟩, ?_⟩
  · rintro ⟨s, hs, hanonymous⟩
    obtain ⟨entry, hentry, e, hw, hstands⟩ :=
      exists_of_forall₂_right hall (mem_of_mem_values hs)
    rw [SecurityScheme.isAnonymous_iff, hstands.key_eq hd] at hanonymous
    exact ⟨entry, hentry, hw.key_eq_anonymousKey_iff.1 hanonymous⟩
  · rintro ⟨entry, hentry, hnull⟩
    obtain ⟨s, hs, e, hw, hstands⟩ := exists_of_forall₂_left hall hentry
    obtain ⟨t, -, htkey, ht⟩ := exists_found hs
    refine ⟨t, mem_values_of_get? ht, SecurityScheme.isAnonymous_iff.2 ?_⟩
    rw [htkey, hstands.key_eq hd]
    exact hw.key_eq_anonymousKey_iff.2 hnull
  · intro entry hentry key overrides s hw hs hunless
    obtain ⟨own, hown, e, hw', hstands⟩ := exists_of_forall₂_left hall hentry
    obtain rfl := hw'.unique hw
    have hownkey : own.key = key := hstands.key_eq hd
    obtain ⟨t, ht, htkey, hfound⟩ := exists_found hown
    rw [hownkey] at htkey hfound
    obtain ⟨other, hother, e, hw', hstands⟩ := exists_of_forall₂_right hall ht
    cases hstands with
    | anonymous =>
        -- an empty entry is found under this key only if the key is that of the anonymous scheme
        cases hw' with
        | anonymous hempty => simp [hunless htkey.symm other hother] at hempty
    | @named name overrides declared hdeclared =>
        have hname : name = key := (hd.key hdeclared).symm.trans htkey
        subst hname
        rw [hs] at hdeclared
        obtain rfl := Option.some.inj hdeclared
        exact ⟨_, hfound⟩

theorem anonymous_iff_empty_or_named_null_basic : ∃ found,
    signingAndBasic.resolve (.list [.text "basic", .null]) = .ok found ∧
      (∃ s ∈ found.values, s.isAnonymous = true) ∧
      ∃ s, found.get? "basic" = some s ∧ s.type = some "Basic Authentication" := by
  have h : signingAndBasic.resolve (.list [.text "basic", .null]) = .ok _ := rfl
  obtain ⟨hanonymous, hnamed⟩ :=
    anonymous_iff_empty_or_named_null signingAndBasic_declared h
  obtain ⟨settings, hbasic⟩ := hnamed (.text "basic") (.head _) "basic" [] _
    (.name rfl (by decide)) rfl fun hkey => absurd hkey (by decide)
  exact ⟨_, h, hanonymous.2 ⟨.null, .tail _ (.head _), .inl rfl⟩, _, hbasic, rfl⟩

/-- A declared scheme under the key of the anonymous one. -/
def basicUnderNull : SecuritySchemes :=
  [("null", ⟨"null", some "Basic Authentication", some "null", none, .empty, []⟩)]

theorem basicUnderNull_declared : basicUnderNull.Declared :=
  declared_of_mem (by decide) (by simp [basicUnderNull, Table.keys])

/-- An entry that names a declared scheme can grant anonymous access with no empty entry beside it,
and such a scheme can be replaced by the anonymous one. -/
theorem not_anonymous_iff_empty :
    (¬ ∀ (schemes : SecuritySchemes) (v : Value) (found : SecuritySchemes), schemes.Declared →
      schemes.resolve v = .ok found → ((∃ s ∈ found.values, s.isAnonymous = true) ↔
        ∃ entry ∈ entriesOf v, entry.isEmpty = true)) ∧
    ¬ ∀ (schemes : SecuritySchemes) (v : Value) (found : SecuritySchemes), schemes.Declared →
      schemes.resolve v = .ok found →
      ∀ entry ∈ entriesOf v, ∀ key overrides s, (Entry.named key overrides).Writes entry →
        schemes.get? key = some s → ∃ settings, found.get? key = some { s with settings } := by
  constructor
  · intro h
    have hiff := h basicUnderNull (.list [.text "null"]) _ basicUnderNull_declared rfl
    obtain ⟨entry, hentry, hempty⟩ := hiff.1 ⟨_, .head _, rfl⟩
    obtain rfl := List.mem_singleton.1 hentry
    revert hempty
    decide
  · intro h
    obtain ⟨settings, hfound⟩ := h basicUnderNull (.list [.text "null", .null]) _
      basicUnderNull_declared rfl _ (.head _) "null" [] _ (.name rfl (by decide)) rfl
    exact nomatch congrArg (Option.bind · SecurityScheme.type) hfound

end SecuritySchemes

end Raml
