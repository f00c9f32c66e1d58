import Raml.Proofs.Registry.Populating

/-! # Types nested in built ones

A type that is nested in a built one was built from a smaller declaration, or
describes itself field by field.
-/

namespace Raml

namespace DataType

theorem untyped?_eq_some {v : Value} {t : DataType} (h : untyped? v = some t) :
    ∃ c, t = .scalar c .any := by
  cases v with
  | map d =>
      simp only [untyped?] at h
      split at h
      · next u hread =>
          obtain rfl := Option.some.inj h
          simp only [Checked.seq_eq_ok_iff, Checked.map_eq_ok_iff] at hread
          obtain ⟨_, _, ⟨_, _, ⟨_, _, ⟨_, _, rfl⟩, _, rfl⟩, _, rfl⟩, _, rfl⟩ := hread
          exact ⟨_, rfl⟩
      · cases h
  | _ => cases h

theorem readMembers_eq_ok {d : Mapping} {built members : List DataType}
    (h : readMembers d built = .ok members) :
    members = built ∨ ∀ t ∈ members, ∃ c, t = .scalar c .any := by
  unfold readMembers at h
  split at h
  · cases h
    exact .inl rfl
  · split at h
    · next members' hread =>
        cases h
        obtain ⟨items, -, hitems⟩ := Option.bind_eq_some_iff.1 hread
        refine .inr fun t ht => ?_
        clear hread
        induction items generalizing members with
        | nil =>
            cases hitems
            cases ht
        | cons v rest ih =>
            simp only [List.mapM_cons, Option.bind_eq_bind, Option.bind_eq_some_iff] at hitems
            obtain ⟨u, hu, us, hus, hcons⟩ := hitems
            obtain rfl := Option.some.inj hcons
            rcases List.mem_cons.1 ht with rfl | ht
            · exact untyped?_eq_some hu
            · exact ih hus ht
    · cases h

/-- What is nested in a type built from an outline is one of the types it was built from, or
describes itself. -/
theorem assemble_nests {bound : Bool} {o : Outline} {nested : List DataType} {t u : DataType}
    (h : assemble bound o nested = .ok t) (hu : t.Nests u) :
    u ∈ nested ∨ ∃ c, u = .scalar c .any := by
  obtain ⟨name, d, shape⟩ := o
  have hassembly := assemble_eq_ok_iff.1 h
  dsimp only at hassembly
  cases hassembly with
  | object hc hf =>
      obtain ⟨p, hp, rfl⟩ := List.mem_map.1 hu
      obtain ⟨k, hk⟩ := Table.mem_ofList hp
      exact .inl (List.of_mem_zip hk).2
  | array hc hf =>
      have hhead : nested.head? = some u := by simpa [Nests, DataType.nested] using hu
      exact .inl (List.mem_of_head? hhead)
  | union hc hm =>
      rcases readMembers_eq_ok hm with rfl | hall
      · exact .inl hu
      · exact .inr (hall u hu)
  | scalar | reference | json | xml | embedded => cases hu

theorem build_eq_ok_iff {bound : Bool} {name : String} {definition : Value} {t : DataType} :
    build bound name definition = .ok t ↔
      ∃ o nested, Outline.ofDefinition name definition = .ok o ∧
        o.shape.nested.mapM (fun p => build bound p.1 p.2) = .ok nested ∧
        assemble bound o nested = .ok t := by
  rw [build_eq, Except.bind_eq_ok_iff]
  simp only [Except.bind_eq_ok_iff]
  constructor
  · rintro ⟨o, ho, nested, hnested, ht⟩
    exact ⟨o, nested, ho, hnested, ht⟩
  · rintro ⟨o, nested, ho, hnested, ht⟩
    exact ⟨o, ho, nested, hnested, ht⟩

theorem build_nests {bound : Bool} {name : String} {definition : Value} {t u : DataType}
    (h : build bound name definition = .ok t) (hu : t.Nests u) :
    (∃ name' definition', definition'.weight < definition.weight ∧
        build bound name' definition' = .ok u) ∨ ∃ c, u = .scalar c .any := by
  obtain ⟨o, nested, ho, hnested, ht⟩ := build_eq_ok_iff.1 h
  rcases assemble_nests ht hu with hmem | hself
  · obtain ⟨p, hp, hbuild⟩ := exists_of_forall₂_right (forall₂_of_mapM hnested) hmem
    exact .inl ⟨p.1, p.2, Outline.weight_lt_of_nested ho hp, hbuild⟩
  · exact .inr hself

end DataType

end Raml
