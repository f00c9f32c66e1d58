import Raml.Proofs.General.Table

/-! # Tables laid over one another

The table on top counts, entry by entry; what it leaves out stays, and so do the
places of the lower table. Where the keys of the tables are regular, several
tables that are laid over one another can be grouped in any way.
-/

namespace Raml

namespace Table

variable {κ α : Type} [BEq κ]

/-! ## Laying one table over another -/

@[simp] theorem overlay_nil (base : Table κ α) : overlay base [] = base := rfl

@[simp] theorem overlay_cons (base : Table κ α) (e : κ × α) (top : Table κ α) :
    overlay base (e :: top) = overlay (insert base e.1 e.2) top := rfl

theorem mem_keys_overlay {base top : Table κ α} {k : κ} (h : k ∈ keys (overlay base top)) :
    k ∈ keys base ∨ k ∈ keys top := by
  induction top generalizing base with
  | nil => exact .inl h
  | cons e rest ih =>
      rcases ih h with hb | hr
      · rcases mem_keys_insert hb with hb | rfl
        · exact .inl hb
        · exact .inr (by simp [keys])
      · exact .inr (List.mem_cons_of_mem _ hr)

theorem mem_keys_overlay_of_mem {base : Table κ α} {k : κ} (h : k ∈ keys base)
    (top : Table κ α) : k ∈ keys (overlay base top) := by
  induction top generalizing base with
  | nil => exact h
  | cons e rest ih => exact ih (mem_keys_insert_of_mem h e.1 e.2)

theorem Distinct.overlay {base : Table κ α} (h : Distinct base) (top : Table κ α) :
    Distinct (overlay base top) := by
  induction top generalizing base with
  | nil => exact h
  | cons e rest ih => exact ih (h.insert e.1 e.2)

theorem distinct_ofList (entries : List (κ × α)) : Distinct (ofList entries) :=
  Distinct.overlay (by simp [Distinct, keys]) entries

/-! ## Looking up -/

/-- A key of one table is equal to the key looked up at most once. -/
theorem get?_tail_eq_none {k key : κ} {a : α} {rest : Table κ α}
    (distinct : Distinct ((k, a) :: rest)) (coherent : ∀ k' ∈ keys rest, Coherent k k' key)
    (h : (k == key) = true) :
    get? rest key = none := by
  rw [get?_eq_none_iff]
  intro k' hk'
  cases hne : k' == key with
  | false => rfl
  | true => exact absurd ((coherent k' hk').outer hne h) (by simp [distinct.head hk'])

theorem get?_overlay_of_coherent {base top : Table κ α} {key : κ} (distinct : Distinct top)
    (h : ∀ a b, a ∈ keys base ∨ a ∈ keys top → b ∈ keys top → Coherent a b key) :
    get? (overlay base top) key = (get? top key).or (get? base key) := by
  induction top generalizing base with
  | nil => simp
  | cons e rest ih =>
      obtain ⟨k, a⟩ := e
      have hmem : k ∈ keys ((k, a) :: rest) := by simp [keys]
      have hrest : ∀ b ∈ keys rest, b ∈ keys ((k, a) :: rest) := fun b hb =>
        List.mem_cons_of_mem _ hb
      have hins : ∀ b c, b ∈ keys (insert base k a) ∨ b ∈ keys rest → c ∈ keys rest →
          Coherent b c key := by
        intro b c hb hc
        refine h b c ?_ (hrest c hc)
        rcases hb with hb | hb
        · rcases mem_keys_insert hb with hb | rfl
          · exact .inl hb
          · exact .inr hmem
        · exact .inr (hrest b hb)
      rw [overlay_cons, ih distinct.tail hins,
        get?_insert_of_coherent a fun b hb => h b k (.inl hb) hmem]
      by_cases hk : (k == key) = true
      · rw [get?_tail_eq_none distinct (fun b hb => h k b (.inr hmem) (hrest b hb)) hk]
        simp [get?, hk]
      · simp [get?, hk]

theorem get?_overlay {base top : Table κ α} (hb : ∀ k ∈ keys base, Regular k)
    (ht : ∀ k ∈ keys top, Regular k) (distinct : Distinct top) (key : κ) :
    get? (overlay base top) key = (get? top key).or (get? base key) :=
  get?_overlay_of_coherent distinct fun a _ ha hb' =>
    (ha.elim (hb a) (ht a)).coherent (ht _ hb') key

theorem insert_of_absent {t : Table κ α} {key : κ} (h : t.has key = false) (a : α) :
    insert t key a = t ++ [(key, a)] := by
  induction t with
  | nil => rfl
  | cons e rest ih =>
      obtain ⟨k, b⟩ := e
      rw [has_eq_any] at h ih
      simp only [keys, List.map_cons, List.any_cons, Bool.or_eq_false_iff] at h ih
      simp [insert, h.1, ih h.2]

theorem overlay_of_distinct {base top : Table κ α} (h : Distinct (base ++ top)) :
    overlay base top = base ++ top := by
  induction top generalizing base with
  | nil => simp
  | cons e rest ih =>
      have habsent : has base e.1 = false := by
        rw [has_eq_any, List.any_eq_false]
        intro k hk
        have hsplit := h
        simp only [Distinct, keys, List.map_append, List.pairwise_append] at hsplit
        simpa using hsplit.2.2 k hk e.1 (by simp)
      have hshift : base ++ e :: rest = (base ++ [e]) ++ rest := by simp
      rw [hshift] at h ⊢
      rw [overlay_cons, insert_of_absent habsent]
      exact ih h

theorem overlay_nil_left {t : Table κ α} (h : Distinct t) : overlay [] t = t :=
  overlay_of_distinct h

/-- Only the value under a key that is present is replaced. -/
theorem insert_of_present {t : Table κ α} {key : κ} (ht : ∀ k ∈ keys t, Regular k)
    (distinct : Distinct t) (h : t.has key = true) (a : α) :
    insert t key a = t.map fun e => if e.1 == key then (e.1, a) else e := by
  induction t with
  | nil => simp [has] at h
  | cons e rest ih =>
      obtain ⟨k, b⟩ := e
      have hregular : ∀ k' ∈ keys rest, Regular k' := fun k' hk' =>
        ht k' (List.mem_cons_of_mem _ hk')
      by_cases hk : (k == key) = true
      · -- no later key is equal to the one that is written
        have hrest : rest.map (fun e => if e.1 == key then (e.1, a) else e) = rest := by
          refine (List.map_congr_left fun e he => ?_).trans (List.map_id' rest)
          have hmem : e.1 ∈ keys rest := List.mem_map_of_mem he
          have hne : ¬ (e.1 == key) = true := fun hek => by
            have hke := (ht k (by simp [keys])).trans hk ((hregular e.1 hmem).symm hek)
            rw [distinct.head hmem] at hke
            cases hke
          rw [if_neg hne]
        simp [insert, hk, hrest]
      · have hrest : has rest key = true := by simpa [has, get?, hk] using h
        simp [insert, hk, ih hregular distinct.tail hrest]

/-- An entry that replaces another one is looked up before those laid over it later. -/
theorem map_insert_of_present {base rest : Table κ α} {k : κ} {a : α}
    (hb : ∀ k ∈ keys base, Regular k) (hbase : Distinct base) (hk : Regular k)
    (hnone : ∀ key, (k == key) = true → get? rest key = none) (present : base.has k = true) :
    (insert base k a).map (fun e => (e.1, (get? rest e.1).getD e.2)) =
      base.map fun e => (e.1, (get? ((k, a) :: rest) e.1).getD e.2) := by
  rw [insert_of_present hb hbase present, List.map_map]
  refine List.map_congr_left fun e he => ?_
  have hmem : e.1 ∈ keys base := List.mem_map_of_mem he
  by_cases hek : (e.1 == k) = true
  · have hke := (hb _ hmem).symm hek
    simp [get?, hek, hke, hnone _ hke]
  · have hke : ¬ (k == e.1) = true := fun hke => hek (hk.symm hke)
    simp [get?, hek, hke]

/-- An entry under a new key has no bearing on the others. -/
theorem map_getD_cons_of_absent {base rest : Table κ α} {k : κ} (a : α) (hk : Regular k)
    (habsent : base.has k = false) :
    base.map (fun e => (e.1, (get? rest e.1).getD e.2)) =
      base.map fun e => (e.1, (get? ((k, a) :: rest) e.1).getD e.2) := by
  refine List.map_congr_left fun e he => ?_
  rw [has_eq_any, List.any_eq_false] at habsent
  have hek := habsent e.1 (List.mem_map_of_mem he)
  have hke : (k == e.1) = false := Bool.eq_false_iff.2 fun hke => hek (hk.symm hke)
  simp [get?, hke]

/-- What is laid over a table replaces values in their places and adds its new keys at the end. -/
theorem overlay_eq_append {base top : Table κ α} (hb : ∀ k ∈ keys base, Regular k)
    (ht : ∀ k ∈ keys top, Regular k) (hbase : Distinct base) (htop : Distinct top) :
    overlay base top = base.map (fun e => (e.1, (top.get? e.1).getD e.2)) ++
      top.filter fun e => !base.has e.1 := by
  induction top generalizing base with
  | nil => simp
  | cons e rest ih =>
      obtain ⟨k, a⟩ := e
      have hk : Regular k := ht k (by simp [keys])
      have hrest : ∀ k' ∈ keys rest, Regular k' := fun k' hk' =>
        ht k' (List.mem_cons_of_mem _ hk')
      have hins : ∀ k' ∈ keys (insert base k a), Regular k' := fun k' hk' =>
        (mem_keys_insert hk').elim (hb k') (· ▸ hk)
      -- what is equal to the first key is found under no other
      have hnone : ∀ key, (k == key) = true → get? rest key = none := fun key hkey =>
        get?_tail_eq_none htop (fun k' hk' => hk.coherent (hrest k' hk') key) hkey
      rw [overlay_cons, ih hins hrest (hbase.insert k a) htop.tail]
      by_cases present : base.has k = true
      · have hhas : ∀ key, (insert base k a).has key = base.has key := fun key => by
          rw [has_eq_any, has_eq_any, keys_insert, if_pos present]
        rw [map_insert_of_present hb hbase hk hnone present]
        simp [hhas, present]
      · have habsent : base.has k = false := by simpa using present
        have hself : get? rest k = none := by
          rw [get?_eq_none_iff]
          intro k' hk'
          have hdiffer : (k == k') = false := htop.head hk'
          exact Bool.eq_false_iff.2 fun he => by simp [(hrest k' hk').symm he] at hdiffer
        have hfilter : rest.filter (fun e => !(base ++ [(k, a)]).has e.1) =
            rest.filter fun e => !base.has e.1 := by
          refine List.filter_congr fun e he => ?_
          have hdiffer : (k == e.1) = false := htop.head (List.mem_map_of_mem he)
          simp [has_eq_any, keys, hdiffer]
        rw [insert_of_absent habsent, List.map_append, hfilter,
          map_getD_cons_of_absent a hk habsent]
        simp [hself, habsent]

/-- Of entries with the same key the last one is found. -/
theorem get?_overlay_find? [LawfulBEq κ] (base top : Table κ α) (key : κ) :
    get? (overlay base top) key =
      ((top.reverse.find? fun e => e.1 == key).map (·.2)).or (get? base key) := by
  induction top generalizing base with
  | nil => rfl
  | cons e rest ih =>
      obtain ⟨k, a⟩ := e
      rw [overlay_cons, ih, get?_insert, List.reverse_cons, List.find?_append]
      cases rest.reverse.find? fun e => e.1 == key with
      | some e => simp
      | none => by_cases hk : (k == key) = true <;> simp [hk]

theorem get?_ofList [LawfulBEq κ] (entries : List (κ × α)) (key : κ) :
    (ofList entries).get? key = (entries.reverse.find? fun e => e.1 == key).map (·.2) := by
  rw [ofList, get?_overlay_find?, get?_nil, Option.or_none]

/-- The keys of a table that is written entry by entry: each once, in the order of their first
appearance. -/
theorem keys_ofList [LawfulBEq κ] (entries : List (κ × α)) :
    keys (ofList entries) = (entries.map (·.1)).eraseDups := by
  induction entries using List.reverseRecOn with
  | nil => rfl
  | append_singleton entries e ih =>
      have hlast : ofList (entries ++ [e]) = insert (ofList entries) e.1 e.2 := by
        simp [ofList, overlay, List.foldl_append]
      rw [hlast, keys_insert, has_eq_any, ih, List.map_append, List.eraseDups_append]
      generalize entries.map (·.1) = ks
      have hany : (ks.eraseDups.any (· == e.1)) = true ↔ e.1 ∈ ks := by
        simp [List.any_eq_true]
      by_cases hmem : e.1 ∈ ks
      · rw [if_pos (hany.2 hmem)]
        simp [List.removeAll, hmem]
      · rw [if_neg (fun h => hmem (hany.1 h))]
        simp [List.removeAll, hmem, List.eraseDups_cons]

/-! ## Entries -/

theorem mem_overlay {base top : Table κ α} {k : κ} {a : α}
    (h : (k, a) ∈ overlay base top) : (k, a) ∈ base ∨ ∃ k', (k', a) ∈ top := by
  induction top generalizing base with
  | nil => exact .inl h
  | cons e rest ih =>
      rw [overlay_cons] at h
      rcases ih h with h | ⟨k', h⟩
      · rcases mem_insert h with h | rfl
        · exact .inl h
        · exact .inr ⟨e.1, by simp⟩
      · exact .inr ⟨k', List.mem_cons_of_mem _ h⟩

theorem mem_ofList {entries : List (κ × α)} {k : κ} {a : α}
    (h : (k, a) ∈ ofList entries) : ∃ k', (k', a) ∈ entries := by
  rcases mem_overlay h with h | h
  · cases h
  · exact h

theorem mem_of_mem_overlay [LawfulBEq κ] {base top : Table κ α} {e : κ × α}
    (h : e ∈ overlay base top) : e ∈ base ∨ e ∈ top := by
  induction top generalizing base with
  | nil => exact .inl h
  | cons e' rest ih =>
      rcases ih h with h | h
      · rcases mem_of_mem_insert h with h | rfl
        · exact .inl h
        · exact .inr List.mem_cons_self
      · exact .inr (List.mem_cons_of_mem _ h)

theorem mem_of_mem_ofList [LawfulBEq κ] {entries : List (κ × α)} {e : κ × α}
    (h : e ∈ ofList entries) : e ∈ entries :=
  (mem_of_mem_overlay h).resolve_left List.not_mem_nil

theorem All.overlay {P : α → Prop} {base top : Table κ α} (hbase : All P base) (htop : All P top) :
    All P (overlay base top) := by
  rintro ⟨k, a⟩ hmem
  rcases mem_overlay hmem with hmem | ⟨k', hmem⟩
  · exact hbase _ hmem
  · exact htop (k', a) hmem

theorem All.ofList {P : α → Prop} {top : Table κ α} (h : All P top) : All P (ofList top) :=
  All.overlay (by simp [All]) h

/-! ## Several tables -/

section Several

variable {β : Type} {a b c : Table κ α}

theorem has_overlay (hb : ∀ k ∈ keys b, Regular k) (hc : ∀ k ∈ keys c, Regular k)
    (distinct : Distinct c) (key : κ) : has (overlay b c) key = (has c key || has b key) := by
  rw [has, get?_overlay hb hc distinct, Option.isSome_or]
  rfl

theorem overlay_assoc (ha : ∀ k ∈ keys a, Regular k) (hb : ∀ k ∈ keys b, Regular k)
    (hc : ∀ k ∈ keys c, Regular k) (distinctA : Distinct a) (distinctB : Distinct b)
    (distinctC : Distinct c) : overlay (overlay a b) c = overlay a (overlay b c) := by
  have hab : ∀ k ∈ keys (overlay a b), Regular k := fun k hk =>
    (mem_keys_overlay hk).elim (ha k) (hb k)
  have hbc : ∀ k ∈ keys (overlay b c), Regular k := fun k hk =>
    (mem_keys_overlay hk).elim (hb k) (hc k)
  rw [overlay_eq_append hab hc (distinctA.overlay b) distinctC,
    overlay_eq_append ha hbc distinctA (distinctB.overlay c)]
  simp only [has_overlay ha hb distinctB, get?_overlay hb hc distinctC]
  rw [overlay_eq_append ha hb distinctA distinctB, overlay_eq_append hb hc distinctB distinctC]
  -- what remains are the entries of the three tables one after the other, with the last value of
  -- each key, where a key is left out of a table that an earlier one has it from
  have hvalue : ∀ e : κ × α, (get? c e.1).getD ((get? b e.1).getD e.2) =
      ((get? c e.1).or (get? b e.1)).getD e.2 := fun e => by cases get? c e.1 <;> rfl
  have hnew : ∀ e : κ × α, (!(has b e.1 || has a e.1)) = (!has a e.1 && !has b e.1) := fun e => by
    rw [Bool.not_or, Bool.and_comm]
  simp only [List.map_append, List.filter_append, List.map_map, List.filter_map, List.filter_filter,
    List.append_assoc, Function.comp_def, hvalue, hnew]

/-- Values that depend on their keys alike for equal keys are written alike. -/
theorem map_insert {f : κ → α → β} (hf : ∀ k k', (k == k') = true → f k = f k') (t : Table κ α)
    (key : κ) (v : α) : (insert t key v).map (fun e => (e.1, f e.1 e.2)) =
      insert (t.map fun e => (e.1, f e.1 e.2)) key (f key v) := by
  induction t with
  | nil => rfl
  | cons e rest ih =>
      obtain ⟨k, w⟩ := e
      by_cases hk : (k == key) = true
      · simp [insert, hk, hf k key hk]
      · simp [insert, hk, ih]

theorem map_overlay {f : κ → α → β} (hf : ∀ k k', (k == k') = true → f k = f k')
    (base top : Table κ α) : (overlay base top).map (fun e => (e.1, f e.1 e.2)) =
      overlay (base.map fun e => (e.1, f e.1 e.2)) (top.map fun e => (e.1, f e.1 e.2)) := by
  induction top generalizing base with
  | nil => rfl
  | cons e rest ih => rw [overlay_cons, ih, map_insert hf, List.map_cons, overlay_cons]

theorem erase_insert {gone : κ} (h : ∀ k k', Coherent k k' gone) (t : Table κ α) (key : κ) (v : α) :
    erase (insert t key v) gone =
      if key == gone then erase t gone else insert (erase t gone) key v := by
  induction t with
  | nil => by_cases hgone : (key == gone) = true <;> simp [insert, erase, hgone]
  | cons e rest ih =>
      obtain ⟨k, w⟩ := e
      simp only [erase] at ih
      by_cases hk : (k == key) = true
      · have hiff : (k == gone) = (key == gone) :=
          Bool.eq_iff_iff.2 ⟨(h k key).right hk, (h k key).left hk⟩
        by_cases hgone : (key == gone) = true <;> simp [insert, erase, hk, hiff, hgone]
      · by_cases hgone : (k == gone) = true <;> by_cases hgone' : (key == gone) = true <;>
          simp [insert, erase, hk, hgone, hgone', ih]

theorem erase_overlay {gone : κ} (h : ∀ k k', Coherent k k' gone) (base top : Table κ α) :
    erase (overlay base top) gone = overlay (erase base gone) (erase top gone) := by
  induction top generalizing base with
  | nil => rfl
  | cons e rest ih =>
      obtain ⟨k, v⟩ := e
      rw [overlay_cons, ih, erase_insert h]
      by_cases hgone : (k == gone) = true <;> simp [erase, hgone]

end Several

section Overlays

variable [LawfulBEq κ]

/-- Whether a table is made of a base with others laid over it, one after the other. Under each key
the last of them that has it counts. -/
structure IsOverlay (base : Table κ α) (tops : List (Table κ α)) (t : Table κ α) : Prop where
  entries : t = tops.foldl overlay base
  get? : ∀ key, t.get? key = (tops.reverse.findSome? (Table.get? · key)).or (base.get? key)

theorem get?_overlay_of_distinct (base : Table κ α) {top : Table κ α} (h : Distinct top)
    (key : κ) : get? (overlay base top) key = (get? top key).or (get? base key) := by
  refine get?_overlay_of_coherent h fun a b _ _ => ⟨?_, ?_, ?_⟩
  all_goals
    simp only [beq_iff_eq]
    rintro rfl rfl
    rfl

omit [LawfulBEq κ] in
theorem IsOverlay.nil (base : Table κ α) : IsOverlay base [] base := ⟨rfl, fun _ => rfl⟩

theorem IsOverlay.cons {base top t : Table κ α} {tops : List (Table κ α)} (h : Distinct top)
    (ht : IsOverlay (overlay base top) tops t) : IsOverlay base (top :: tops) t where
  entries := ht.entries
  get? key := by
    rw [ht.get? key, get?_overlay_of_distinct base h, List.reverse_cons, List.findSome?_append,
      List.findSome?_singleton, Option.or_assoc]

theorem IsOverlay.single {base top : Table κ α} (h : Distinct top) :
    IsOverlay base [top] (overlay base top) :=
  .cons h (.nil _)

end Overlays

/-! ## Tables with the same keys -/

section Pairs

variable {β : Type} {R : α → β → Prop}

/-- Whether two entries have the same key and related values. -/
def SameEntry (R : α → β → Prop) (p : κ × α) (q : κ × β) : Prop :=
  p.1 = q.1 ∧ R p.2 q.2

theorem forall₂_insert {t : Table κ α} {u : Table κ β}
    (h : List.Forall₂ (SameEntry R) t u) (key : κ) {a : α} {b : β} (hab : R a b) :
    List.Forall₂ (SameEntry R) (insert t key a) (insert u key b) := by
  induction h with
  | nil => exact .cons ⟨rfl, hab⟩ .nil
  | @cons p q t u hpq hrest ih =>
      obtain ⟨k, a'⟩ := p
      obtain ⟨k', b'⟩ := q
      obtain ⟨hkey, hvalue⟩ := hpq
      dsimp only at hkey hvalue
      subst hkey
      simp only [insert]
      split
      · exact .cons ⟨rfl, hab⟩ hrest
      · exact .cons ⟨rfl, hvalue⟩ ih

theorem forall₂_overlay {base top : List (κ × α)} {base' top' : List (κ × β)}
    (hbase : List.Forall₂ (SameEntry R) base base') (htop : List.Forall₂ (SameEntry R) top top') :
    List.Forall₂ (SameEntry R) (overlay base top) (overlay base' top') := by
  induction htop generalizing base base' with
  | nil => exact hbase
  | @cons p q _ _ hpq _ ih =>
      rw [overlay_cons, overlay_cons, ← hpq.1]
      exact ih (forall₂_insert hbase p.1 hpq.2)

theorem forall₂_ofList {entries : List (κ × α)} {entries' : List (κ × β)}
    (h : List.Forall₂ (SameEntry R) entries entries') :
    List.Forall₂ (SameEntry R) (ofList entries) (ofList entries') :=
  forall₂_overlay .nil h

omit [BEq κ] in
theorem forall₂_zip {xs : List α} {ys : List β} (h : List.Forall₂ R xs ys) (keys : List κ) :
    List.Forall₂ (SameEntry R) (keys.zip xs) (keys.zip ys) := by
  induction h generalizing keys with
  | nil => simp
  | cons hxy _ ih =>
      cases keys with
      | nil => exact .nil
      | cons key rest => exact .cons ⟨rfl, hxy⟩ (ih rest)

end Pairs

end Table

end Raml
