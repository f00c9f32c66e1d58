import Mathlib.Data.List.Chain
import Mathlib.Data.List.Nodup
import Raml.Proofs.DataType.Members
import Raml.Proofs.Validation.Verdicts

/-! # The depth of checks

How deeply the types that a value is passed on to are nested at most. A union
is written in one type expression, so its members are no unions and no facet
stands beside a member that is a reference; the value goes on from a member to
a registered type. If no type comes twice on the way, it ends after as many
types as are registered. From one value to a part of it a whole way of this
length may lead, so the weight of the value counts the ways. That bounds the
depth at which a check that comes to an end at all has done so.
-/

namespace Raml

open DataType Relation

/-! ## Members of unions -/

/-- Whether the members of a type, if it is a union, are no unions and have no constraining facets
beside a reference. -/
def DataType.HasPlainMembers (t : DataType) : Prop :=
  ∀ c members, t = .union c members →
    ∀ u ∈ members, u.kind ≠ .union ∧ (u.target?.isSome → ¬ u.IsNarrowed)

namespace Outline

/-- An expression alone has no field but its type and the mark that it is optional. -/
theorem mem_keys_settleOptional {name expression : String} {k : Value}
    (h : k ∈ Table.keys (settleOptional name [(.text "type", .text expression)] expression).2.1) :
    k = .text "type" ∨ k = .text "required" := by
  have hdefault : ∀ k ∈ Table.keys
      (withDefault [(.text "type", .text expression)] "required" (.bool false)),
      k = .text "type" ∨ k = .text "required" := by
    intro k hk
    unfold withDefault at hk
    split at hk
    · exact .inl (by simpa [Table.keys] using hk)
    · rcases Table.mem_keys_insert hk with hk | hk
      · exact .inl (by simpa [Table.keys] using hk)
      · exact .inr hk
  unfold settleOptional at h
  split at h
  · dsimp only at h
    split at h
    · exact hdefault k h
    · rcases Table.mem_keys_insert h with h | h
      · exact hdefault k h
      · exact .inl h
  · exact .inl (by simpa [Table.keys] using h)

theorem wordKind_ne_union {word : String} (h : '|' ∉ word.toList) : wordKind word ≠ .union := by
  unfold wordKind
  split
  · next scalar _ => cases scalar <;> simp [ScalarWord.kind]
  · split
    · simp
    · split
      · simp
      · split
        · simp
        · split
          · simp
          · rw [ofExpression_kind, if_neg h]
            split <;> simp

end Outline

namespace DataType

/-- A type built from an expression without a separator is no union, and narrows nothing. -/
theorem build_part {bound : Bool} {name expression : String} {t : DataType}
    (h : build bound name (.text expression) = .ok t) (hbar : '|' ∉ expression.toList) :
    t.kind ≠ .union ∧ ¬ t.IsNarrowed := by
  obtain ⟨o, nested, ho, -, ht⟩ := build_eq_ok h
  rcases Outline.ofDefinition_cases ho with
    ⟨schema, hd, -⟩ | ⟨d, hd, ⟨schema, hs, -⟩ | ⟨e, he, ho⟩⟩
  · cases hd
  · obtain rfl := Except.ok.inj hd
    simp [Mapping.field?, Table.get?] at hs
  · obtain rfl := Except.ok.inj hd
    obtain rfl : expression = e := by simpa [Mapping.field?, Table.get?] using he
    obtain ⟨hdecl, hkind, -⟩ := Outline.ofText_spec ho
    constructor
    · rw [ht.kind, hkind, Outline.typeKind]
      refine Outline.wordKind_ne_union fun hmem => hbar ?_
      have hinfix := (Text.trim_infix (Outline.settleOptional name
        [(.text "type", .text expression)] expression).2.2).trans
          (Outline.settleOptional_isPrefix name _ expression).isInfix
      exact hinfix.subset hmem
    · rw [IsNarrowed, ht.declaration, hdecl, List.any_eq_true]
      rintro ⟨e, he, hconstraining⟩
      have hkey : e.1 ∈ Table.keys (Outline.settleOptional name
          [(.text "type", .text expression)] expression).2.1 := List.mem_map.2 ⟨e, he, rfl⟩
      rcases Outline.mem_keys_settleOptional hkey with hk | hk <;>
        simp [hk, isConstraining, descriptiveFacets] at hconstraining

theorem not_mem_of_mem_splitUnion {word part : String} (h : part ∈ Outline.splitUnion word) :
    '|' ∉ part.toList := by
  simp only [Outline.splitUnion, Text.splitAt, List.map_map, List.mem_map, Function.comp_apply] at h
  obtain ⟨piece, hpiece, rfl⟩ := h
  intro hbar
  have hinfix := (Text.trim_infix (String.ofList piece)).subset hbar
  rw [String.toList_ofList] at hinfix
  exact Text.not_mem_of_mem_splitChars hpiece hinfix

theorem ofDefinition_union {name : String} {definition : Value} {o : Outline}
    {expressions : List String} (h : Outline.ofDefinition name definition = .ok o)
    (hshape : o.shape = .union expressions) : ∀ part ∈ expressions, '|' ∉ part.toList := by
  intro part hpart
  rcases Outline.ofDefinition_cases h with
    ⟨schema, -, rfl⟩ | ⟨d, -, ⟨schema, -, rfl⟩ | ⟨e, -, ho⟩⟩
  · cases hshape
  · cases hshape
  · obtain ⟨-, -, ⟨hnil, -⟩ | ⟨properties, ho, -⟩ | ⟨name', ho⟩ | ho, -⟩ := Outline.ofText_spec ho
    · rw [hshape] at hnil
      obtain rfl : expressions = [] := by simpa [Shape.nested] using hnil
      cases hpart
    · cases ho.symm.trans hshape
    · cases ho.symm.trans hshape
    · rw [hshape] at ho
      generalize Text.trim _ = word at ho
      unfold Outline.ofExpression at ho
      split at ho
      · rw [Shape.union.inj ho] at hpart
        exact not_mem_of_mem_splitUnion hpart
      · split at ho <;> cases ho

theorem build_hasPlainMembers {bound : Bool} {name : String} {definition : Value} {t : DataType}
    (h : build bound name definition = .ok t) : t.HasPlainMembers := by
  rintro c members rfl u hu
  obtain ⟨⟨name', d, shape⟩, nested, ho, hnested, ht⟩ := build_eq_ok_iff.1 h
  have hassembly := assemble_eq_ok_iff.1 ht
  dsimp only at hassembly
  cases hassembly with
  | @union expressions _ _ hc hm =>
      rcases readMembers_eq_ok hm with rfl | hall
      · obtain ⟨p, hp, hbuild⟩ := exists_of_forall₂_right (forall₂_of_mapM hnested) hu
        obtain ⟨part, hpart, rfl⟩ := List.mem_map.1 hp
        have hplain := build_part hbuild (ofDefinition_union ho rfl part hpart)
        exact ⟨hplain.1, fun _ => hplain.2⟩
      · obtain ⟨c', rfl⟩ := hall u hu
        exact ⟨by simp [kind, Scalar.kind], by simp [target?]⟩

/-- Whether the type and all types nested in it have plain members. -/
def IsFlat (t : DataType) : Prop := ∀ u, ReflTransGen Nests t u → u.HasPlainMembers

theorem IsFlat.of_nests {t u : DataType} (h : t.IsFlat) (hu : t.Nests u) : u.IsFlat :=
  fun a ha => h a (.head hu ha)

theorem isFlat_of_nests {t : DataType} (ht : t.HasPlainMembers)
    (h : ∀ u, t.Nests u → u.IsFlat) : t.IsFlat := by
  intro a ha
  rcases ReflTransGen.cases_head ha with rfl | ⟨u, hu, ha⟩
  · exact ht
  · exact h u hu a ha

theorem build_isFlat {bound : Bool} {name : String} {definition : Value} {t : DataType}
    (h : build bound name definition = .ok t) : t.IsFlat := by
  generalize hw : definition.weight = w
  induction w using Nat.strongRecOn generalizing name definition t with
  | ind w ih =>
      refine isFlat_of_nests (build_hasPlainMembers h) fun u hu => ?_
      rcases build_nests h hu with ⟨name', definition', hlt, hbuild⟩ | ⟨c, rfl⟩
      · exact ih _ (hw ▸ hlt) hbuild rfl
      · refine isFlat_of_nests (fun c members hunion => by cases hunion) fun u' hu' => ?_
        cases hu'

theorem IsBuilt.isFlat {t : DataType} (h : t.IsBuilt) : t.IsFlat := by
  induction h with
  | build h => exact build_isFlat h
  | @withParent t _ parent ih =>
      refine isFlat_of_nests ?_ fun u hu => ih.of_nests (by simpa [Nests] using hu)
      intro c members hunion
      cases t with
      | union c' members' =>
          cases hunion
          exact ih _ .refl c' members rfl
      | _ => cases hunion
  | @withBinding t _ bound ih =>
      cases t with
      | reference c target b =>
          refine isFlat_of_nests (fun c members hunion => by cases hunion) fun u hu => ?_
          cases hu
      | _ => exact ih

end DataType

namespace Validation

open Registry

variable {r : Registry}

theorem PassesOn.isFlat (hr : r.IsSettled) {t u : DataType} (ht : t.IsFlat)
    (h : PassesOn r t u) : u.IsFlat := by
  cases h with
  | member hu => exact ht.of_nests hu
  | target hu => exact (hr.effective_built hu).1.isFlat

theorem Asks.isFlat (hr : r.IsSettled) {t u : DataType} {v w : Value} (ht : t.IsFlat)
    (h : Asks r (t, v) (u, w)) : u.IsFlat := by
  cases h with
  | property hu hw => exact ht.of_nests (List.mem_map.2 ⟨_, hu, rfl⟩)
  | item hv hw => exact ht.of_nests (by simp [Nests, nested])
  | member hu => exact ht.of_nests hu
  | target hu => exact (hr.effective_built hu).1.isFlat

/-! ## Passing a value on -/

theorem exists_entry_of_member (hr : r.IsSettled) {c : Common} {members : List DataType}
    {m t : DataType} (hflat : (DataType.union c members).IsFlat) (hm : m ∈ members)
    (h : PassesOn r m t) : ∃ name, r.get? name = some t := by
  obtain ⟨hunion, hplain⟩ := hflat _ .refl c members rfl m hm
  cases h with
  | member _ => exact absurd rfl hunion
  | @target c target bound t ht =>
      obtain ⟨-, u, hget, ⟨-, rfl⟩ | ⟨hnarrowed, -⟩⟩ := hr.effective_cases ht
      · exact ⟨target, hget⟩
      · exact absurd hnarrowed (hplain rfl)

/-- On a way from a registered type, every other type is registered. -/
theorem exists_names_of_chain (hr : r.IsSettled) {t : DataType} {ts : List DataType}
    (ht : ∃ name, r.get? name = some t) (hchain : (t :: ts).IsChain (PassesOn r))
    (hnodup : (t :: ts).Nodup) :
    ∃ names : List String, names.Nodup ∧ (∀ name ∈ names, ∃ u ∈ t :: ts, r.get? name = some u) ∧
      (t :: ts).length ≤ 2 * names.length := by
  obtain ⟨name, hname⟩ := ht
  match ts with
  | [] => exact ⟨[name], by simp, by simpa using hname, by simp⟩
  | [m] => exact ⟨[name], by simp, by simp [hname], by simp⟩
  | m :: u :: rest =>
      rw [List.isChain_cons_cons, List.isChain_cons_cons] at hchain
      obtain ⟨htm, hmu, hrest⟩ := hchain
      have hentry : ∃ name, r.get? name = some u := by
        cases htm with
        | member hm => exact exists_entry_of_member hr (hr.built hname).isFlat hm hmu
        | target _ => cases hr.target? hname
      have htail : (u :: rest).Nodup := (List.nodup_cons.1 (List.nodup_cons.1 hnodup).2).2
      obtain ⟨names, hnames, hmem, hlength⟩ := exists_names_of_chain hr hentry hrest htail
      have hfresh : name ∉ names := by
        intro hin
        obtain ⟨t', ht', hget⟩ := hmem name hin
        obtain rfl := Option.some.inj (hname.symm.trans hget)
        exact (List.nodup_cons.1 hnodup).1 (List.mem_cons_of_mem m ht')
      refine ⟨name :: names, List.nodup_cons.2 ⟨hfresh, hnames⟩, ?_, ?_⟩
      · intro n hn
        rcases List.mem_cons.1 hn with rfl | hn
        · exact ⟨t, by simp, hname⟩
        · obtain ⟨t', ht', hget⟩ := hmem n hn
          exact ⟨t', List.mem_cons_of_mem t (List.mem_cons_of_mem m ht'), hget⟩
      · simp only [List.length_cons] at hlength ⊢
        omega
termination_by ts.length

theorem length_le_of_entry (hr : r.IsSettled) {t : DataType} {ts : List DataType}
    (ht : ∃ name, r.get? name = some t) (hchain : (t :: ts).IsChain (PassesOn r))
    (hnodup : (t :: ts).Nodup) : (t :: ts).length ≤ 2 * r.length := by
  obtain ⟨names, hnames, hmem, hlength⟩ := exists_names_of_chain hr ht hchain hnodup
  have hle : names.length ≤ r.length := length_le_of_registered hnames fun name hname => by
    obtain ⟨u, -, hget⟩ := hmem name hname
    simp [Table.has, hget]
  omega

/-- From a member of a union on, the way is one step longer at most. -/
theorem length_le_of_member (hr : r.IsSettled) {c : Common} {members : List DataType}
    {m : DataType} {ts : List DataType} (hflat : (DataType.union c members).IsFlat)
    (hm : m ∈ members) (hchain : (m :: ts).IsChain (PassesOn r)) (hnodup : (m :: ts).Nodup) :
    (m :: ts).length ≤ 2 * r.length + 1 := by
  cases ts with
  | nil => simp
  | cons u rest =>
      rw [List.isChain_cons_cons] at hchain
      have hentry := exists_entry_of_member hr hflat hm hchain.1
      have hle := length_le_of_entry hr hentry hchain.2 (List.nodup_cons.1 hnodup).2
      simp only [List.length_cons] at hle ⊢
      omega

/-- How many types a value is passed on to at most before one comes again. -/
theorem length_le_of_passesOn (hr : r.IsSettled) {t : DataType} {ts : List DataType}
    (ht : t.IsFlat) (hchain : (t :: ts).IsChain (PassesOn r)) (hnodup : (t :: ts).Nodup) :
    (t :: ts).length ≤ 2 * r.length + 3 := by
  cases ts with
  | nil => simp
  | cons u rest =>
      rw [List.isChain_cons_cons] at hchain
      obtain ⟨htu, hrest⟩ := hchain
      have hu : u.IsFlat := htu.isFlat hr ht
      have hnodup' := (List.nodup_cons.1 hnodup).2
      cases htu with
      | member hm =>
          have hle := length_le_of_member hr ht hm hrest hnodup'
          simp only [List.length_cons] at hle ⊢
          omega
      | target heffective =>
          cases rest with
          | nil => simp
          | cons m rest =>
              rw [List.isChain_cons_cons] at hrest
              obtain ⟨hum, hrest⟩ := hrest
              cases hum with
              | member hm =>
                  have hle := length_le_of_member hr hu hm hrest (List.nodup_cons.1 hnodup').2
                  simp only [List.length_cons] at hle ⊢
                  omega
              | target _ => cases (hr.effective_built heffective).2

/-! ## Going on to parts of a value -/

theorem exists_split_of_chain {t : DataType} {v : Value} {ps : List (DataType × Value)}
    (hchain : ((t, v) :: ps).IsChain (Asks r)) :
    ∃ ts rest, (t, v) :: ps = (t :: ts).map (·, v) ++ rest ∧ (t :: ts).IsChain (PassesOn r) ∧
      ∀ p ∈ rest.head?, p.2.weight < v.weight := by
  induction ps generalizing t with
  | nil => exact ⟨[], [], by simp, by simp, by simp⟩
  | cons p ps ih =>
      obtain ⟨u, w⟩ := p
      rw [List.isChain_cons_cons] at hchain
      rcases hchain.1.cases with hlt | ⟨rfl, hpass⟩
      · exact ⟨[], (u, w) :: ps, by simp, by simp, by simpa using hlt⟩
      · obtain ⟨ts, rest, hsplit, hts, hhead⟩ := ih hchain.2
        exact ⟨u :: ts, rest, by simpa using hsplit, List.isChain_cons_cons.2 ⟨hpass, hts⟩, hhead⟩

theorem isFlat_of_chain (hr : r.IsSettled) {p : DataType × Value} {ps : List (DataType × Value)}
    (hp : p.1.IsFlat) (hchain : (p :: ps).IsChain (Asks r)) : ∀ q ∈ p :: ps, q.1.IsFlat := by
  induction ps generalizing p with
  | nil => simpa using hp
  | cons q ps ih =>
      rw [List.isChain_cons_cons] at hchain
      intro q' hq'
      rcases List.mem_cons.1 hq' with rfl | hq'
      · exact hp
      · exact ih (Asks.isFlat hr hp hchain.1) hchain.2 q' hq'

/-- A way on which no type comes twice with the same value is no longer than the weight of the
value allows. -/
theorem length_le_of_asks (hr : r.IsSettled) {t : DataType} {v : Value}
    {ps : List (DataType × Value)} (ht : t.IsFlat) (hchain : ((t, v) :: ps).IsChain (Asks r))
    (hnodup : ((t, v) :: ps).Nodup) :
    ((t, v) :: ps).length ≤ v.weight * (2 * r.length + 3) := by
  generalize hweight : v.weight = weight
  induction weight using Nat.strongRecOn generalizing t v ps with
  | ind weight ih =>
      -- first the types that are passed the value itself, then what is left for a lighter value
      obtain ⟨ts, rest, hsplit, hts, hhead⟩ := exists_split_of_chain hchain
      have hflat := isFlat_of_chain hr ht hchain
      rw [hsplit] at hchain hnodup hflat ⊢
      have hsame : (t :: ts).length ≤ 2 * r.length + 3 :=
        length_le_of_passesOn hr ht hts (List.Nodup.of_map _ (List.nodup_append.1 hnodup).1)
      have hrest : rest.length ≤ (weight - 1) * (2 * r.length + 3) := by
        cases rest with
        | nil => simp
        | cons q rest =>
            obtain ⟨u, w⟩ := q
            have hlt : w.weight < v.weight := hhead (u, w) (by simp)
            have hu : u.IsFlat := hflat (u, w) (by simp)
            have hle := ih w.weight (hweight ▸ hlt) hu hchain.right_of_append
              (List.nodup_append.1 hnodup).2.1 rfl
            refine hle.trans (Nat.mul_le_mul_right _ ?_)
            omega
      have hpos : 0 < weight := hweight ▸ weight_pos v
      have hsum : (2 * r.length + 3) + (weight - 1) * (2 * r.length + 3) =
          weight * (2 * r.length + 3) := by
        obtain ⟨k, rfl⟩ : ∃ k, weight = k + 1 := ⟨weight - 1, by omega⟩
        rw [Nat.add_sub_cancel, Nat.succ_mul k, Nat.add_comm]
      rw [List.length_append, List.length_map]
      omega

/-! ## Depth enough -/

/-- A check that takes `n + 1` levels has a way of as many types behind it, each of which takes
fewer levels than the one before. -/
theorem exists_chain_of_finished [Engines] {n : Nat} {t : DataType} {v : Value}
    (hopen : validateWithin r n t v = .error .endless)
    (hdone : validateWithin r (n + 1) t v ≠ .error .endless) :
    ∃ ps : List (DataType × Value), ps.length = n ∧ ((t, v) :: ps).IsChain (Asks r) ∧
      ((t, v) :: ps).Nodup ∧
      ∀ p ∈ (t, v) :: ps, validateWithin r (n + 1) p.1 p.2 ≠ .error .endless := by
  induction n generalizing t v with
  | zero => exact ⟨[], rfl, by simp, by simp, by simpa using hdone⟩
  | succ n ih =>
      obtain ⟨u, w, hasks, hopen', hdone'⟩ := exists_asked_of_finished hopen hdone
      obtain ⟨ps, hlength, hchain, hnodup, hall⟩ := ih hopen' hdone'
      refine ⟨(u, w) :: ps, by simp [hlength], List.isChain_cons_cons.2 ⟨hasks, hchain⟩, ?_, ?_⟩
      · -- those behind come to an end within the levels that the first one does not
        exact List.nodup_cons.2 ⟨fun hmem => hall (t, v) hmem hopen, hnodup⟩
      · intro p hp
        rcases List.mem_cons.1 hp with rfl | hp
        · exact hdone
        · intro hend
          have hborn := validateWithin_bornOut (r := r) (Nat.le_succ (n + 1)) p.1 p.2
          rcases hborn with h | h
          · exact hall p hp (verdict_eq_unfinished_iff.1 h)
          · rw [hend] at h
            exact hall p hp (verdict_eq_unfinished_iff.1 h.symm)

theorem ne_endless_of_le [Engines] {m n : Nat} (hmn : m ≤ n) {t : DataType} {v : Value}
    (h : validateWithin r m t v ≠ .error .endless) :
    validateWithin r n t v ≠ .error .endless := by
  intro hend
  rcases validateWithin_bornOut (r := r) hmn t v with hb | hb
  · exact h (verdict_eq_unfinished_iff.1 hb)
  · rw [hend] at hb
    exact h (verdict_eq_unfinished_iff.1 hb.symm)

/-- A check that comes to an end has done so within the weight of the value, times the types that
one value is passed on to. -/
theorem ne_endless_of_bound [Engines] (hr : r.IsSettled) {t : DataType} (ht : t.IsFlat)
    {v : Value} {n m : Nat}
    (h : validateWithin r n t v ≠ .error .endless) (hm : v.weight * (2 * r.length + 3) ≤ m) :
    validateWithin r m t v ≠ .error .endless := by
  induction n with
  | zero => exact absurd rfl h
  | succ n ih =>
      by_cases hopen : validateWithin r n t v = .error .endless
      · obtain ⟨ps, hlength, hchain, hnodup, -⟩ := exists_chain_of_finished hopen h
        have hle := length_le_of_asks hr ht hchain hnodup
        rw [List.length_cons, hlength] at hle
        exact ne_endless_of_le (hle.trans hm) h
      · exact ih hopen

theorem le_foldl_weight {es : Registry} (start : Nat)
    (h : ∀ e ∈ es, 0 < Value.weightEntries e.2.declaration) :
    start + 2 * es.length ≤ es.foldl (fun weight e => weight +
      (Value.weightEntries e.2.declaration + e.1.length + 1)) start := by
  induction es generalizing start with
  | nil => simp
  | cons e rest ih =>
      have he := h e (by simp)
      have hrest := ih (start + (Value.weightEntries e.2.declaration + e.1.length + 1))
        fun e' he' => h e' (List.mem_cons_of_mem _ he')
      simp only [List.length_cons, List.foldl_cons] at hrest ⊢
      omega

theorem le_registryWeight (hr : r.IsSettled) (hdistinct : (Table.keys r).Nodup) :
    2 * r.length ≤ registryWeight r := by
  have hentries : ∀ e ∈ r, 0 < Value.weightEntries e.2.declaration := by
    rintro ⟨name, t⟩ he
    have hget := Table.get?_of_mem ((Table.distinct_iff_nodup r).2 hdistinct) he
    obtain ⟨v, hv, -⟩ := (hr.built hget).isFaithful
    obtain ⟨k, -, hmem⟩ := Table.mem_of_get? hv
    exact (weight_pos v).trans_le (Value.weight_le_weightEntries hmem)
  simpa [registryWeight] using le_foldl_weight 0 hentries

theorem bound_le_depthBound (hr : r.IsSettled) (hdistinct : (Table.keys r).Nodup) (t : DataType)
    (v : Value) : v.weight * (2 * r.length + 3) ≤ depthBound r t v := by
  have hweight := le_registryWeight hr hdistinct
  exact Nat.mul_le_mul (by omega) (by omega)

/-- A check goes on endlessly only if it does so at every depth. -/
theorem validate_endless_iff [Engines] (hr : r.IsSettled) (hdistinct : (Table.keys r).Nodup)
    {t : DataType} (ht : t.IsFlat) {v : Value} :
    t.validate r v = .error .endless ↔ ∀ n, validateWithin r n t v = .error .endless := by
  constructor
  · intro h n
    by_contra hn
    exact ne_endless_of_bound hr ht hn (bound_le_depthBound hr hdistinct t v) h
  · exact fun h => h _

theorem validate_eq_ok_iff [Engines] (hr : r.IsSettled) (hdistinct : (Table.keys r).Nodup)
    {t : DataType} (ht : t.IsFlat) {v : Value} :
    t.validate r v = .ok () ↔ ∃ n, validateWithin r n t v = .ok () := by
  constructor
  · exact fun h => ⟨_, h⟩
  · rintro ⟨n, hn⟩
    have hdone : t.validate r v ≠ .error .endless := fun hend => by
      have hall := (validate_endless_iff hr hdistinct ht).1 hend n
      rw [hn] at hall
      cases hall
    rcases Nat.le_total n (depthBound r t v) with hle | hle
    · exact (validateWithin_bornOut hle t v).eq_ok hn
    · rcases validateWithin_bornOut (r := r) hle t v with h | h
      · exact absurd (verdict_eq_unfinished_iff.1 h) hdone
      · rw [hn] at h
        exact verdict_eq_accepts_iff.1 h.symm

end Validation

end Raml
