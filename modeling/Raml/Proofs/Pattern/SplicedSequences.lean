import Raml.Proofs.Pattern.SplicedReading

/-! # Sequences inside others

Parts and alternatives are read alike in front of a closing parenthesis. They are read from left to
right, and what is left to read is the same in front of both ends as long as something is left;
what is read to the end of its tokens is read up to the parenthesis. An anchor at the end of the
tokens is one more part there, and the parts before it are the same.
-/

namespace Raml

namespace Pattern

/-! ## One part at a time -/

/-- The parts, the tokens and what is known after something is read, or nothing if the sequence ends
in front of it. -/
abbrev PartRead := Except Problem (Option (List Node × List Token × Progress))

/-- What an opening parenthesis starts, as one more part, or flags for the whole expression. -/
def readOpened (fuel : Nat) (leading : Bool) (parts : List Node) (rest : List Token)
    (pr : Progress) : PartRead := do
  let (opening, rest, pr) ← readOpening rest pr
  match opening with
  | .whole f =>
      if leading && parts.isEmpty then .ok (some (parts, rest, { pr with flags := f })) else refuse
  | opening => do
      let (node, rest, pr) ← readGroup fuel opening rest pr
      .ok (some (parts ++ node.toList, rest, pr))

/-- A character as one more part, or as a repetition of the last one. -/
def readRepeated (parts : List Node) (c : Char) (rest : List Token) (pr : Progress) : PartRead := do
  match ← readBounds? c rest with
  | none => .ok (some (parts ++ [plainNode c pr.flags], rest, pr))
  | some (least, most, rest) =>
      match parts.getLast? with
      | none => refuse
      | some last =>
          if isRepeatable last then
            let (preference, rest) := readPreference rest
            .ok (some (parts.dropLast ++ [.rounds least most preference last], rest, pr))
          else refuse

def readPart (fuel : Nat) (leading : Bool) (parts : List Node) (t : Token) (rest : List Token)
    (pr : Progress) : PartRead :=
  match t with
  | .escaped c => do
      let (node, rest) ← readEscape c rest pr
      .ok (some (parts ++ [node], rest, pr))
  | .plain c =>
      if c = '|' || c = ')' then .ok none
      else if pr.flags.verbose && isSkipped c then .ok (some (parts, rest, pr))
      else if pr.flags.verbose && c = '#' then .ok (some (parts, skipComment rest, pr))
      else if c = '[' then do
        let (node, rest) ← readSet rest pr.flags
        .ok (some (parts ++ [node], rest, pr))
      else if c = '(' then readOpened fuel leading parts rest pr
      else readRepeated parts c rest pr

theorem readSequence_cons (fuel : Nat) (leading : Bool) (parts : List Node) (t : Token)
    (rest : List Token) (pr : Progress) :
    readSequence (fuel + 1) leading parts (t :: rest) pr =
      readPart fuel leading parts t rest pr >>= fun next =>
        match next with
        | none => .ok (parts, t :: rest, pr)
        | some (parts, rest, pr) => readSequence fuel leading parts rest pr := by
  cases t with
  | escaped c =>
      simp only [readSequence, readPart]
      cases readEscape c rest pr <;> rfl
  | plain c =>
      simp only [readSequence, readPart]
      split
      · rfl
      split
      · rfl
      split
      · rfl
      split
      · cases readSet rest pr.flags <;> rfl
      split
      · unfold readOpened
        rcases readOpening rest pr with problem | ⟨opening, rest, pr⟩
        · rfl
        cases opening with
        | whole f =>
            simp only [bind, Except.bind]
            split <;> rfl
        | _ =>
            simp only [bind, Except.bind]
            rcases readGroup fuel _ rest pr with problem | ⟨node, rest, pr⟩ <;> rfl
      · unfold readRepeated
        rcases readBounds? c rest with problem | _ | ⟨least, most, rest⟩
        · rfl
        · rfl
        simp only [bind, Except.bind]
        cases parts.getLast? with
        | none => rfl
        | some last =>
            simp only
            split <;> rfl

theorem readOpened_ne_none {fuel : Nat} {leading : Bool} {parts : List Node} {rest : List Token}
    {pr : Progress} : readOpened fuel leading parts rest pr ≠ .ok none := fun h => by
  obtain ⟨⟨opening, rest, pr⟩, -, h⟩ := Except.bind_eq_ok_iff.1 h
  cases opening with
  | whole f =>
      simp only at h
      split at h <;> cases h
  | _ =>
      obtain ⟨q, -, h⟩ := Except.bind_eq_ok_iff.1 h
      cases h

theorem readRepeated_ne_none {parts : List Node} {c : Char} {rest : List Token} {pr : Progress} :
    readRepeated parts c rest pr ≠ .ok none := fun h => by
  obtain ⟨bounds, -, h⟩ := Except.bind_eq_ok_iff.1 h
  cases bounds with
  | none => cases h
  | some b =>
      simp only at h
      split at h
      · cases h
      · split at h <;> cases h

/-- A sequence ends only in front of a bar or a closing parenthesis. -/
theorem readPart_eq_none {fuel : Nat} {leading : Bool} {parts : List Node} {t : Token}
    {rest : List Token} {pr : Progress} (h : readPart fuel leading parts t rest pr = .ok none) :
    t = .plain '|' ∨ t = .plain ')' := by
  cases t with
  | escaped c =>
      obtain ⟨p, -, hp⟩ := Except.bind_eq_ok_iff.1 h
      cases hp
  | plain c =>
      simp only [readPart] at h
      split at h
      · next hc => simpa using hc
      split at h
      · cases h
      split at h
      · cases h
      split at h
      · obtain ⟨p, -, hp⟩ := Except.bind_eq_ok_iff.1 h
        cases hp
      split at h
      · exact absurd h readOpened_ne_none
      · exact absurd h readRepeated_ne_none

theorem readPart_stop {t : Token} (ht : t = .plain '|' ∨ t = .plain ')') (fuel : Nat)
    (leading : Bool) (parts : List Node) (rest : List Token) (pr : Progress) :
    readPart fuel leading parts t rest pr = .ok none := by
  rcases ht with rfl | rfl <;> simp [readPart]

def readChoice (fuel fuel' : Nat) (leading : Bool) (parts : List Node) (ts : List Token)
    (pr : Progress) : Except Problem (Node × List Token × Progress) :=
  readSequence fuel leading parts ts pr >>= fun p => readFurther fuel' (sequence p.1) p.2.1 p.2.2

theorem readAlternatives_eq (fuel : Nat) (top : Bool) (ts : List Token) (pr : Progress) :
    readAlternatives (fuel + 1) top ts pr = readChoice fuel fuel top [] ts pr := by
  rw [readAlternatives]
  rfl

/-! ## One group at a time -/

namespace Opening

def encloses : Opening → Bool
  | .plain | .flags _ | .atomic | .capture _ | .look _ _ => true
  | _ => false

def enter (opening : Opening) (pr : Progress) : Except Problem Progress :=
  match opening with
  | .flags f => .ok { pr with flags := f }
  | .capture none => .ok { pr with groupCount := pr.groupCount + 1 }
  | .capture (some name) =>
      if (pr.names.lookup name).isSome then refuse
      else .ok { pr with
        groupCount := pr.groupCount + 1
        names := (name, pr.groupCount) :: pr.names }
  | .look false _ => .ok { pr with behindFrom := some (pr.behindFrom.getD pr.groupCount) }
  | _ => .ok pr

/-- The part that a group is and what is known behind it, from what it contains and what is known
in front of it. -/
def close (opening : Opening) (outer : Progress) (node : Node) (pr : Progress) :
    Except Problem (Node × Progress) :=
  match opening with
  | .plain => .ok (wrapped node, pr)
  | .flags _ => .ok (wrapped node, { pr with flags := outer.flags })
  | .atomic => .ok (.atomic node, pr)
  | .capture _ =>
      .ok (.group outer.groupCount node,
        { pr with closed := (outer.groupCount, node.width pr.closed) :: pr.closed })
  | .look true negated => .ok (.ahead negated node, pr)
  | .look false negated =>
      let width := node.width pr.closed
      if width.most = some width.least then
        .ok (.behind negated width.least node, { pr with behindFrom := outer.behindFrom })
      else refuse
  | _ => refuse

theorem encloses_shift (k : Nat) (opening : Opening) :
    (opening.shift k).encloses = opening.encloses := by
  cases opening <;> rfl

theorem enter_shift (k : Nat) {opening : Opening} {pr inner : Progress}
    (h : opening.enter pr = .ok inner) :
    (opening.shift k).enter (pr.shift k) = .ok (inner.shift k) := by
  cases opening with
  | capture name =>
      cases name with
      | none =>
          obtain rfl := Except.ok.inj h
          simp [Opening.shift, enter, Progress.shift, Nat.add_right_comm]
      | some name =>
          have hnames :
              ((pr.shift k).names.lookup name).isSome = (pr.names.lookup name).isSome := by
            rw [Progress.shift, lookup_names, Option.isSome_map]
          simp only [enter] at h
          split at h
          · cases h
          · next hfree =>
              obtain rfl := Except.ok.inj h
              simp only [Opening.shift, enter, hnames, if_neg hfree]
              simp [Progress.shift, Nat.add_right_comm]
  | look ahead negated =>
      cases ahead with
      | true =>
          obtain rfl := Except.ok.inj h
          rfl
      | false =>
          obtain rfl := Except.ok.inj h
          simp only [Opening.shift, enter, Progress.shift]
          cases pr.behindFrom <;> rfl
  | _ =>
      obtain rfl := Except.ok.inj h
      rfl

theorem close_shift (k : Nat) {opening : Opening} {outer pr pr₁ : Progress} {node node₁ : Node}
    (h : opening.close outer node pr = .ok (node₁, pr₁)) :
    (opening.shift k).close (outer.shift k) (node.shift k) (pr.shift k) =
      .ok (node₁.shift k, pr₁.shift k) := by
  have hwidth : (node.shift k).width (pr.shift k).closed = node.width pr.closed :=
    node.width_shift k pr.closed
  cases opening with
  | plain =>
      obtain ⟨rfl, rfl⟩ := Prod.mk.inj (Except.ok.inj h)
      simp only [Opening.shift, close, wrapped_shift]
  | flags f =>
      obtain ⟨rfl, rfl⟩ := Prod.mk.inj (Except.ok.inj h)
      simp only [Opening.shift, close, wrapped_shift]
      rfl
  | atomic =>
      obtain ⟨rfl, rfl⟩ := Prod.mk.inj (Except.ok.inj h)
      rfl
  | capture name =>
      obtain ⟨rfl, rfl⟩ := Prod.mk.inj (Except.ok.inj h)
      simp only [Opening.shift, close, hwidth]
      rfl
  | look ahead negated =>
      cases ahead with
      | true =>
          obtain ⟨rfl, rfl⟩ := Prod.mk.inj (Except.ok.inj h)
          rfl
      | false =>
          simp only [close] at h
          split at h
          · next hfixed =>
              obtain ⟨rfl, rfl⟩ := Prod.mk.inj (Except.ok.inj h)
              simp only [Opening.shift, close, hwidth, if_pos hfixed]
              rfl
          · cases h
  | _ => cases h

theorem close_flags {opening : Opening} {outer inner pr pr₁ : Progress} {node node₁ : Node}
    (henter : opening.enter outer = .ok inner) (hflags : pr.flags = inner.flags)
    (h : opening.close outer node pr = .ok (node₁, pr₁)) : pr₁.flags = outer.flags := by
  cases opening with
  | plain | atomic =>
      obtain rfl := Except.ok.inj henter
      obtain ⟨-, rfl⟩ := Prod.mk.inj (Except.ok.inj h)
      exact hflags
  | flags f =>
      obtain ⟨-, rfl⟩ := Prod.mk.inj (Except.ok.inj h)
      rfl
  | capture name =>
      have hinner : inner.flags = outer.flags := by
        cases name with
        | none =>
            obtain rfl := Except.ok.inj henter
            rfl
        | some name =>
            simp only [enter] at henter
            split at henter
            · cases henter
            · obtain rfl := Except.ok.inj henter
              rfl
      obtain ⟨-, rfl⟩ := Prod.mk.inj (Except.ok.inj h)
      exact hflags.trans hinner
  | look ahead negated =>
      cases ahead with
      | true =>
          obtain rfl := Except.ok.inj henter
          obtain ⟨-, rfl⟩ := Prod.mk.inj (Except.ok.inj h)
          exact hflags
      | false =>
          obtain rfl := Except.ok.inj henter
          simp only [close] at h
          split at h
          · obtain ⟨-, rfl⟩ := Prod.mk.inj (Except.ok.inj h)
            exact hflags
          · cases h
  | _ => cases h

end Opening

theorem readGroup_encloses {opening : Opening} (h : opening.encloses = true) (fuel : Nat)
    (ts : List Token) (pr : Progress) : readGroup (fuel + 1) opening ts pr = (do
      let inner ← opening.enter pr
      let (node, ts, inner) ← readAlternatives fuel false ts inner
      let ts ← expectClose ts
      let (node, pr) ← opening.close pr node inner
      .ok (some node, ts, pr)) := by
  cases opening with
  | plain | flags f | atomic =>
      simp only [readGroup, Opening.enter, Opening.close, bind, Except.bind]
  | capture name =>
      simp only [readGroup, Opening.enter, Opening.close, bind, Except.bind]
      cases name with
      | none => rfl
      | some name =>
          simp only
          split <;> rfl
  | look ahead negated =>
      cases ahead with
      | true => simp only [readGroup, Opening.enter, Opening.close, bind, Except.bind]
      | false =>
          simp only [readGroup, Opening.enter, Opening.close, bind, Except.bind]
          rcases readAlternatives fuel false ts
            { pr with behindFrom := some (pr.behindFrom.getD pr.groupCount) } with problem | p
          · rfl
          dsimp only
          rcases expectClose p.2.1 with problem | ts'
          · rfl
          dsimp only
          split <;> rfl
  | _ => cases h

/-! ## In front of another end -/

section Splicing

variable (k : Nat) (e e' : List Token)

/-- Whether groups are read alike in front of another end, with later groups. -/
def GroupsSplice (fuel : Nat) : Prop :=
  ∀ ⦃opening : Opening⦄ ⦃u ts : List Token⦄ ⦃pr pr₁ : Progress⦄ ⦃node : Option Node⦄,
    IsMovable k false u → opening.isWhole = false →
    readGroup fuel opening (u ++ e) pr = .ok (node, ts, pr₁) →
    pr₁.flags = pr.flags ∧ ∃ r, r <:+ u ∧ ts = r ++ e ∧
      ∀ fuel', 3 * (u ++ e').length + 2 < fuel' →
        readGroup fuel' (opening.shift k) (u ++ e') (pr.shift k) =
          .ok (node.map (Node.shift k), r ++ e', pr₁.shift k)

variable {k e e'} (he : IsOpenEnd e) (he' : IsEnd e')
include he he'

theorem readOpened_splice {fuel : Nat} (hgroups : GroupsSplice k e e' fuel) {leading : Bool}
    {parts parts₁ : List Node} {u ts : List Token} {pr pr₁ : Progress}
    (hopens : opensPlainly u = true ∨ k = 0 ∧ leading = false) (hmove : IsMovable k leading u)
    (h : readOpened fuel leading parts (u ++ e) pr = .ok (some (parts₁, ts, pr₁))) :
    pr₁.flags = pr.flags ∧ ∃ r, r <:+ u ∧ ts = r ++ e ∧
      ∀ fuel', 3 * (u ++ e').length + 2 < fuel' → ∀ leading',
        readOpened fuel' leading' (parts.map (Node.shift k)) (u ++ e') (pr.shift k) =
          .ok (some (parts₁.map (Node.shift k), r ++ e', pr₁.shift k)) := by
  obtain ⟨⟨opening, ts', pr'⟩, hopening, h⟩ := Except.bind_eq_ok_iff.1 h
  have hwhole : opening.isWhole = false := by
    obtain hplain | ⟨-, rfl⟩ := hopens
    · exact isWhole_of_opensPlainly he hplain hopening
    · cases opening with
      | whole f => simp [refuse] at h
      | _ => rfl
  obtain ⟨hflags, r, hr, rfl, hread⟩ :=
    readOpening_splice he k he' (hopens.imp_right And.left) hopening
  obtain ⟨⟨node, ts', pr''⟩, hgroup, h⟩ : ∃ p, readGroup fuel opening (r ++ e) pr' = .ok p ∧
      .ok (some (parts ++ p.1.toList, p.2)) = (.ok (some (parts₁, ts, pr₁)) : PartRead) := by
    cases opening with
    | whole f => cases hwhole
    | _ => exact Except.bind_eq_ok_iff.1 h
  obtain ⟨rfl, rfl, rfl⟩ := by simpa using h
  obtain ⟨hflags', r', hr', rfl, hgroup'⟩ :=
    hgroups (hmove.inside.suffix hr) hwhole hgroup
  refine ⟨hflags'.trans hflags, r', hr'.trans hr, rfl, fun fuel' hfuel leading' => ?_⟩
  have hlength := hr.length_le
  have hlater := hgroup' fuel' (by simp only [List.length_append] at hfuel ⊢; omega)
  have hnode : parts.map (Node.shift k) ++ (node.map (Node.shift k)).toList =
      (parts ++ node.toList).map (Node.shift k) := by cases node <;> simp
  simp only [readOpened, hread, bind, Except.bind]
  cases opening with
  | whole f => cases hwhole
  | _ =>
      simp only [Opening.shift] at hlater ⊢
      rw [hlater]
      simp only [hnode]

theorem readRepeated_splice {c : Char} {parts parts₁ : List Node} {u ts : List Token}
    {pr pr₁ : Progress} (h : readRepeated parts c (u ++ e) pr = .ok (some (parts₁, ts, pr₁))) :
    pr₁ = pr ∧ ∃ r, r <:+ u ∧ ts = r ++ e ∧
      readRepeated (parts.map (Node.shift k)) c (u ++ e') (pr.shift k) =
        .ok (some (parts₁.map (Node.shift k), r ++ e', pr₁.shift k)) := by
  obtain ⟨bounds, hsuffix, hbounds⟩ := readBounds?_alike c u
  simp only [readRepeated, hbounds e he.isEnd] at h
  simp only [readRepeated, hbounds e' he']
  rcases bounds with problem | _ | ⟨least, most, v⟩
  · cases h
  · obtain ⟨rfl, rfl, rfl⟩ := by simpa using h
    have hplain : plainNode c pr.flags = (plainNode c pr.flags).shift k := by
      unfold plainNode
      split <;> rfl
    refine ⟨rfl, u, List.suffix_rfl, rfl, ?_⟩
    simp only [List.map_append, List.map_cons, List.map_nil, ← hplain]
    rfl
  · obtain ⟨preference, r, hr, hpreference⟩ := readPreference_alike v
    simp only [Except.map, bind, Except.bind, Option.map_some, hpreference e he.isEnd] at h
    simp only [Except.map, bind, Except.bind, Option.map_some, hpreference e' he']
    cases hlast : parts.getLast? with
    | none =>
        rw [hlast] at h
        cases h
    | some last =>
        simp only [hlast] at h
        split at h
        · next hrepeat =>
            obtain ⟨rfl, rfl, rfl⟩ := by simpa using h
            refine ⟨rfl, r, hr.trans (hsuffix _ _ _ rfl), rfl, ?_⟩
            simp [List.getLast?_map, hlast, isRepeatable_shift, hrepeat, Node.shift]
        · cases h

/-- One part is read alike in front of another end, unless a comment takes everything. -/
theorem readPart_splice {fuel : Nat} (hgroups : GroupsSplice k e e' fuel) {leading : Bool}
    {parts parts₁ : List Node} {t : Token} {u ts : List Token} {pr pr₁ : Progress}
    (hmove : IsMovable k leading (t :: u))
    (h : readPart fuel leading parts t (u ++ e) pr = .ok (some (parts₁, ts, pr₁)))
    (hleft : pr.flags.verbose = true → ts ≠ []) :
    pr₁.flags = pr.flags ∧ ∃ r, r <:+ u ∧ ts = r ++ e ∧
      ∀ fuel', 3 * (u ++ e').length + 2 < fuel' → ∀ leading',
        readPart fuel' leading' (parts.map (Node.shift k)) t (u ++ e') (pr.shift k) =
          .ok (some (parts₁.map (Node.shift k), r ++ e', pr₁.shift k)) := by
  cases t with
  | escaped c =>
      have hnumber : numbersNoGroup c u = true ∨ k = 0 :=
        hmove.imp (fun h => (Bool.and_eq_true_iff.1 h).1) And.left
      obtain ⟨⟨node, ts'⟩, hnode, h⟩ := Except.bind_eq_ok_iff.1 h
      obtain ⟨rfl, rfl, rfl⟩ := by simpa using h
      obtain ⟨r, hr, rfl, hread⟩ := (readEscape_alike c pr).replace he.isEnd he' hnode
      refine ⟨rfl, r, hr, rfl, fun fuel' _ leading' => ?_⟩
      have hlater := readEscape_shift k
        (hnumber.imp_left (numbersNoGroup_append he' c u).trans) pr
      simp only [readPart, hlater, hread]
      simp [Except.map, bind, Except.bind]
  | plain c =>
      have hrest : IsMovable k leading u := hmove.suffix (List.suffix_cons _ _)
      have hflags : (pr.shift k).flags = pr.flags := rfl
      simp only [readPart, hflags] at h ⊢
      -- which branch is taken depends on the character and the flags, which are the same
      split at h
      · cases h
      next hstop =>
      simp only [if_neg hstop]
      split at h
      next hskip =>
          obtain ⟨rfl, rfl, rfl⟩ := by simpa using h
          exact ⟨rfl, u, List.suffix_rfl, rfl, fun _ _ _ => by rw [if_pos hskip]⟩
      next hskip =>
      simp only [if_neg hskip]
      split at h
      next hcomment =>
          obtain ⟨rfl, rfl, rfl⟩ := by simpa using h
          obtain ⟨r, hr, hskipped, hread⟩ :=
            skipComment_replace he (hleft (Bool.and_eq_true_iff.1 hcomment).1)
          exact ⟨rfl, r, hr, hskipped, fun _ _ _ => by rw [if_pos hcomment, hread]⟩
      next hcomment =>
      simp only [if_neg hcomment]
      split at h
      next hset =>
          obtain ⟨⟨node, ts'⟩, hnode, h⟩ := Except.bind_eq_ok_iff.1 h
          obtain ⟨rfl, rfl, rfl⟩ := by simpa using h
          obtain ⟨r, hr, rfl, hread⟩ := readSet_replace he he' hnode
          refine ⟨rfl, r, hr, rfl, fun _ _ _ => ?_⟩
          simp [hset, hread, readSet_shift k hnode, bind, Except.bind]
      next hset =>
      simp only [if_neg hset]
      split at h
      next hopen =>
          simp only [if_pos hopen]
          refine readOpened_splice he he' hgroups (hmove.imp_left fun h => ?_) hrest h
          simpa [hopen] using (Bool.and_eq_true_iff.1 h).1
      next hopen =>
          simp only [if_neg hopen]
          obtain ⟨rfl, r, hr, rfl, hread⟩ := readRepeated_splice he he' h
          exact ⟨rfl, r, hr, rfl, fun _ _ _ => hread⟩

end Splicing

/-! ### Sequences and alternatives -/

/-- What can stand behind a sequence that is read to its end: nothing or a closing parenthesis. -/
def IsShut (e : List Token) : Prop := e = [] ∨ ∃ rest, e = .plain ')' :: rest

theorem IsShut.isEnd {e : List Token} (h : IsShut e) : IsEnd e :=
  h.imp_right fun ⟨rest, h⟩ => ⟨')', rest, h, .inr rfl⟩

theorem IsShut.readSequence {e : List Token} (h : IsShut e) (fuel : Nat) (leading : Bool)
    (parts : List Node) (pr : Progress) :
    readSequence (fuel + 1) leading parts e pr = .ok (parts, e, pr) := by
  rcases h with rfl | ⟨rest, rfl⟩
  · exact readSequence_nil ..
  · exact readSequence_stop _ _ _ _ (.inr rfl)

section Splicing

variable (k : Nat) (e e' : List Token)

/-- Where a reader gets to in front of one end, and with later groups in front of another. Where
it gets to the end it need not come to the same, as an anchor may be left out there. -/
inductive Arrives {α : Type} (shift : α → α) (u : List Token)
    (reads : α × List Token × Progress → Prop) : α → List Token → Progress → Prop
  | inside {a : α} {r : List Token} {pr : Progress} : r ≠ [] → r <:+ u →
      reads (shift a, r ++ e', pr.shift k) → Arrives shift u reads a (r ++ e) pr
  | atEnd {a b : α} {pr : Progress} : (e = [] → b = a) → reads (shift b, e', pr.shift k) →
      Arrives shift u reads a [] pr

/-- Whether sequences are read alike in front of another end. A comment may take everything where
verbose expressions are read. -/
def SequencesSplice (fuel : Nat) : Prop :=
  ∀ ⦃leading : Bool⦄ ⦃parts nodes : List Node⦄ ⦃u ts : List Token⦄ ⦃pr pr₁ : Progress⦄,
    IsMovable k leading u → readSequence fuel leading parts (u ++ e) pr = .ok (nodes, ts, pr₁) →
    (pr.flags.verbose = true → ts ≠ []) →
    pr₁.flags = pr.flags ∧ Arrives k e e' (List.map (Node.shift k)) u
      (fun x => ∀ fuel', 3 * (u ++ e').length < fuel' → ∀ leading',
        readSequence fuel' leading' (parts.map (Node.shift k)) (u ++ e') (pr.shift k) = .ok x)
      nodes ts pr₁

/-- Whether further alternatives are read alike in front of another end, unless at the end. -/
def FurtherSplices (fuel : Nat) : Prop :=
  ∀ ⦃first node : Node⦄ ⦃u ts : List Token⦄ ⦃pr pr₁ : Progress⦄,
    u ≠ [] → IsMovable k false u → readFurther fuel first (u ++ e) pr = .ok (node, ts, pr₁) →
    (pr.flags.verbose = true → ts ≠ []) →
    pr₁.flags = pr.flags ∧ Arrives k e e' (Node.shift k) u
      (fun x => ∀ fuel', 3 * (u ++ e').length < fuel' →
        readFurther fuel' (first.shift k) (u ++ e') (pr.shift k) = .ok x)
      node ts pr₁

/-- Whether alternatives are read alike in front of another end. -/
def AlternativesSplice (fuel : Nat) : Prop :=
  ∀ ⦃top : Bool⦄ ⦃node : Node⦄ ⦃u ts : List Token⦄ ⦃pr pr₁ : Progress⦄,
    IsMovable k top u → readAlternatives fuel top (u ++ e) pr = .ok (node, ts, pr₁) →
    (pr.flags.verbose = true → ts ≠ []) →
    pr₁.flags = pr.flags ∧ Arrives k e e' (Node.shift k) u
      (fun x => ∀ fuel', 3 * (u ++ e').length + 1 < fuel' → ∀ top',
        readAlternatives fuel' top' (u ++ e') (pr.shift k) = .ok x)
      node ts pr₁

variable {k e e'}

theorem Arrives.mono {α : Type} {shift : α → α} {r u : List Token}
    {reads reads' : α × List Token × Progress → Prop} {a : α} {ts : List Token} {pr : Progress}
    (h : Arrives k e e' shift r reads a ts pr) (hr : r <:+ u) (hreads : ∀ x, reads x → reads' x) :
    Arrives k e e' shift u reads' a ts pr := by
  cases h with
  | inside hne hsuffix hread => exact .inside hne (hsuffix.trans hr) (hreads _ hread)
  | atEnd hsame hread => exact .atEnd hsame (hreads _ hread)

variable (he : IsOpenEnd e) (he' : IsShut e')
include he he'

omit he' in
theorem readSequence_openEnd {fuel : Nat} {leading : Bool} {parts nodes : List Node}
    {ts : List Token} {pr pr₁ : Progress}
    (h : readSequence fuel leading parts e pr = .ok (nodes, ts, pr₁)) :
    ts = [] ∧ pr₁ = pr ∧ (e = [] → parts = nodes) := by
  cases fuel with
  | zero => cases h
  | succ fuel =>
      rcases he with rfl | rfl
      · obtain ⟨rfl, rfl, rfl⟩ := by simpa [readSequence_nil] using h
        exact ⟨rfl, rfl, fun _ => rfl⟩
      · cases fuel with
        | zero => simp [readSequence, readBounds?, isSkipped, bind, Except.bind, refuse] at h
        | succ fuel =>
            simp [readSequence, readBounds?, isSkipped, bind, Except.bind] at h
            exact ⟨h.2.1, h.2.2.symm, fun hnil => absurd hnil (List.cons_ne_nil _ _)⟩

theorem sequencesSplice_succ {fuel : Nat} (hsequences : SequencesSplice k e e' fuel)
    (hgroups : GroupsSplice k e e' fuel) : SequencesSplice k e e' (fuel + 1) := by
  intro leading parts nodes u ts pr pr₁ hmove h hleft
  cases u with
  | nil =>
      obtain ⟨rfl, rfl, hparts⟩ := readSequence_openEnd he h
      refine ⟨rfl, .atEnd hparts fun fuel' hfuel leading' => ?_⟩
      obtain ⟨fuel', rfl⟩ : ∃ n, fuel' = n + 1 := ⟨fuel' - 1, by omega⟩
      exact he'.readSequence fuel' leading' _ _
  | cons t u =>
      rw [List.cons_append, readSequence_cons] at h
      obtain ⟨_ | ⟨parts₂, ts₂, pr₂⟩, hpart, h⟩ := Except.bind_eq_ok_iff.1 h
      · obtain ⟨rfl, rfl, rfl⟩ := by simpa using h
        refine ⟨rfl, .inside (r := t :: u) (List.cons_ne_nil t u) List.suffix_rfl ?_⟩
        intro fuel' hfuel leading'
        obtain ⟨fuel', rfl⟩ : ∃ n, fuel' = n + 1 := ⟨fuel' - 1, by omega⟩
        rw [List.cons_append, readSequence_cons, readPart_stop (readPart_eq_none hpart)]
        rfl
      · have hleft₂ : pr.flags.verbose = true → ts₂ ≠ [] := by
          rintro hverbose rfl
          cases fuel with
          | zero => cases h
          | succ fuel =>
              obtain ⟨rfl, rfl, rfl⟩ := by simpa [readSequence_nil] using h
              exact hleft hverbose rfl
        -- what the part leaves can be moved as well, and is shorter by a token at least
        obtain ⟨hflags, r, hr, rfl, hread⟩ :=
          readPart_splice he he'.isEnd hgroups hmove hpart hleft₂
        have hrest : IsMovable k leading r := hmove.suffix (hr.trans (List.suffix_cons t u))
        obtain ⟨hflags', harrives⟩ := hsequences hrest h (hflags ▸ hleft)
        refine ⟨hflags'.trans hflags, harrives.mono (hr.trans (List.suffix_cons t u)) ?_⟩
        intro x hx fuel' hfuel leading'
        have hlength := hr.length_le
        simp only [List.cons_append, List.length_cons, List.length_append] at hfuel
        obtain ⟨fuel', rfl⟩ : ∃ n, fuel' = n + 1 := ⟨fuel' - 1, by omega⟩
        rw [List.cons_append, readSequence_cons,
          hread fuel' (by rw [List.length_append]; omega) leading']
        exact hx fuel' (by rw [List.length_append]; omega) leading'

omit he he' in
theorem readFurther_stop {ts : List Token} (h : ∀ rest, ts ≠ .plain '|' :: rest) (fuel : Nat)
    (first : Node) (pr : Progress) : readFurther (fuel + 1) first ts pr = .ok (first, ts, pr) := by
  rw [readFurther]
  exact h

omit he in
/-- The fuel for the alternatives need not be that for the sequence in front of them. -/
theorem readChoice_splice {fuel₁ fuel₂ : Nat} (hsequences : SequencesSplice k e e' fuel₁)
    (hfurther : FurtherSplices k e e' fuel₂) {leading : Bool} {node : Node} {u ts : List Token}
    {pr pr₁ : Progress} (hmove : IsMovable k leading u)
    (h : readChoice fuel₁ fuel₂ leading [] (u ++ e) pr = .ok (node, ts, pr₁))
    (hleft : pr.flags.verbose = true → ts ≠ []) :
    pr₁.flags = pr.flags ∧ Arrives k e e' (Node.shift k) u
      (fun x => ∀ fuel', 3 * (u ++ e').length + 1 < fuel' → ∀ top',
        readAlternatives fuel' top' (u ++ e') (pr.shift k) = .ok x)
      node ts pr₁ := by
  obtain ⟨⟨nodes, ts₂, pr₂⟩, hsequence, h⟩ := Except.bind_eq_ok_iff.1 h
  cases fuel₂ with
  | zero => cases h
  | succ fuel₂ =>
  have hnil : ∀ {first : Node} {pr : Progress},
      readFurther (fuel₂ + 1) first [] pr = .ok (first, [], pr) :=
    readFurther_stop (by simp) fuel₂ _ _
  have hleft₂ : pr.flags.verbose = true → ts₂ ≠ [] := by
    rintro hverbose rfl
    obtain ⟨rfl, rfl, rfl⟩ := by simpa [hnil] using h
    exact hleft hverbose rfl
  obtain ⟨hflags, harrives⟩ := hsequences hmove hsequence hleft₂
  cases harrives with
  | @inside r _ hne hr hread =>
      obtain ⟨hflags', harrives⟩ :=
        hfurther hne (hmove.inside.suffix hr) h (hflags ▸ hleft)
      refine ⟨hflags'.trans hflags, harrives.mono hr fun x hx fuel' hfuel top' => ?_⟩
      have hlength := hr.length_le
      obtain ⟨fuel', rfl⟩ : ∃ n, fuel' = n + 1 := ⟨fuel' - 1, by omega⟩
      rw [readAlternatives_eq, readChoice, ← List.map_nil, hread fuel' (by omega) top']
      simp only [List.length_append] at hfuel
      show readFurther fuel' (sequence (nodes.map (Node.shift k))) _ _ = _
      rw [sequence_shift]
      exact hx fuel' (by rw [List.length_append]; omega)
  | @atEnd nodes' _ hsame hread =>
      obtain ⟨rfl, rfl, rfl⟩ := by simpa [hnil] using h
      refine ⟨hflags, .atEnd (b := sequence nodes') (fun h => by rw [hsame h]) ?_⟩
      intro fuel' hfuel top'
      obtain ⟨fuel', rfl⟩ : ∃ n, fuel' = n + 1 + 1 := ⟨fuel' - 2, by omega⟩
      rw [readAlternatives_eq, readChoice, ← List.map_nil, hread (fuel' + 1) (by omega) top']
      show readFurther (fuel' + 1) (sequence (nodes'.map (Node.shift k))) _ _ = _
      rw [sequence_shift]
      refine readFurther_stop (fun rest heq => ?_) fuel' _ _
      exact he'.isEnd.head? (by decide : '|' ≠ '$') (by decide) (congrArg List.head? heq)

omit he in
theorem alternativesSplice_succ {fuel : Nat} (hsequences : SequencesSplice k e e' fuel)
    (hfurther : FurtherSplices k e e' fuel) : AlternativesSplice k e e' (fuel + 1) := by
  intro top node u ts pr pr₁ hmove h hleft
  rw [readAlternatives_eq] at h
  exact readChoice_splice he' hsequences hfurther hmove h hleft

omit he he' in
theorem furtherSplices_succ {fuel : Nat}
    (halternatives : AlternativesSplice k e e' (fuel + 1)) :
    FurtherSplices k e e' (fuel + 1) := by
  intro first node u ts pr pr₁ hne hmove h hleft
  by_cases hbar : ∃ v, u = .plain '|' :: v
  · obtain ⟨v, rfl⟩ := hbar
    rw [List.cons_append, readFurther_bar, Except.map_eq_ok_iff] at h
    obtain ⟨⟨others, ts₂, pr₂⟩, hothers, heq⟩ := h
    obtain ⟨rfl, rfl, rfl⟩ := by simpa using heq
    obtain ⟨hflags, harrives⟩ :=
      halternatives (hmove.suffix (List.suffix_cons _ _)) hothers hleft
    -- the bar and what is read behind it, with any fuel that is enough
    have hreads : ∀ (others : Node) (ts : List Token) (pr' : Progress),
        (∀ fuel', 3 * (v ++ e').length + 1 < fuel' → ∀ top',
          readAlternatives fuel' top' (v ++ e') (pr.shift k) = .ok (others.shift k, ts, pr')) →
        ∀ fuel', 3 * (.plain '|' :: v ++ e').length < fuel' →
          readFurther fuel' (first.shift k) (.plain '|' :: v ++ e') (pr.shift k) =
            .ok ((Node.alt first others).shift k, ts, pr') := by
      intro others ts pr' hread fuel' hfuel
      simp only [List.cons_append, List.length_cons] at hfuel
      obtain ⟨fuel', rfl⟩ : ∃ n, fuel' = n + 1 := ⟨fuel' - 1, by omega⟩
      rw [List.cons_append, readFurther_bar, hread (fuel' + 1) (by omega) false]
      rfl
    refine ⟨hflags, ?_⟩
    cases harrives with
    | inside hne hr hread =>
        exact .inside hne (hr.trans (List.suffix_cons _ _)) (hreads _ _ _ hread)
    | atEnd hsame hread =>
        exact .atEnd (fun h => by rw [hsame h]) (hreads _ _ _ hread)
  · have hstop : ∀ (e : List Token) rest, u ++ e ≠ .plain '|' :: rest := by
      intro e rest heq
      cases u with
      | nil => exact hne rfl
      | cons t v => exact hbar ⟨v, by rw [(List.cons.inj heq).1]⟩
    rw [readFurther_stop (hstop e)] at h
    obtain ⟨rfl, rfl, rfl⟩ := by simpa using h
    refine ⟨rfl, .inside hne List.suffix_rfl fun fuel' hfuel => ?_⟩
    obtain ⟨fuel', rfl⟩ : ∃ n, fuel' = n + 1 := ⟨fuel' - 1, by omega⟩
    exact readFurther_stop (hstop e') fuel' _ _

/-! ### Groups -/

omit he he' in
theorem expectClose_eq_ok {ts rest : List Token} (h : expectClose ts = .ok rest) :
    ts = .plain ')' :: rest := by
  unfold expectClose at h
  split at h
  · obtain rfl := Except.ok.inj h
    rfl
  · cases h

omit he' in
/-- What goes on with a bar or a closing parenthesis is not at the end. -/
theorem Arrives.cons {α : Type} {shift : α → α} {u : List Token}
    {reads : α × List Token × Progress → Prop} {c : Char} (hc : c ≠ '$') {a : α} {ts : List Token}
    {pr : Progress} (h : Arrives k e e' shift u reads a (.plain c :: ts) pr) :
    ∃ r, r <:+ u ∧ ts = r ++ e ∧ reads (shift a, .plain c :: (r ++ e'), pr.shift k) := by
  generalize hts : Token.plain c :: ts = ts' at h
  cases h with
  | inside hne hr hread =>
      obtain ⟨v, rfl, rfl⟩ := he.cons_of_append hc hts.symm
      exact ⟨v, (List.suffix_cons _ _).trans hr, rfl, hread⟩
  | atEnd hsame hread => cases hts

omit he' in
theorem AlternativesSplice.closed {fuel : Nat} (halternatives : AlternativesSplice k e e' fuel)
    {node : Node} {u ts ts' : List Token} {pr pr₁ : Progress} (hmove : IsMovable k false u)
    (h : readAlternatives fuel false (u ++ e) pr = .ok (node, ts, pr₁))
    (hclose : expectClose ts = .ok ts') :
    pr₁.flags = pr.flags ∧ ∃ r, r <:+ u ∧ ts' = r ++ e ∧
      ∀ fuel', 3 * (u ++ e').length + 1 < fuel' →
        readAlternatives fuel' false (u ++ e') (pr.shift k) =
          .ok (node.shift k, .plain ')' :: (r ++ e'), pr₁.shift k) := by
  obtain rfl := expectClose_eq_ok hclose
  obtain ⟨hflags, harrives⟩ := halternatives hmove h fun _ => List.cons_ne_nil _ _
  obtain ⟨r, hr, rfl, hread⟩ := harrives.cons he (by decide)
  exact ⟨hflags, r, hr, rfl, fun fuel' hfuel => hread fuel' hfuel false⟩

omit he' in
/-- A group with alternatives is read alike from what is known inside it on, and with what it comes
to once it is closed. -/
theorem readGroup_encloses_splice {fuel : Nat} (halternatives : AlternativesSplice k e e' fuel)
    {opening : Opening} (hencloses : opening.encloses = true) {u ts : List Token}
    {pr pr₁ : Progress} {node : Option Node} (hmove : IsMovable k false u)
    (h : readGroup (fuel + 1) opening (u ++ e) pr = .ok (node, ts, pr₁)) :
    pr₁.flags = pr.flags ∧ ∃ r, r <:+ u ∧ ts = r ++ e ∧
      ∀ fuel', 3 * (u ++ e').length + 2 < fuel' →
        readGroup fuel' (opening.shift k) (u ++ e') (pr.shift k) =
          .ok (node.map (Node.shift k), r ++ e', pr₁.shift k) := by
  rw [readGroup_encloses hencloses] at h
  obtain ⟨inner, henter, h⟩ := Except.bind_eq_ok_iff.1 h
  obtain ⟨⟨body, ts₂, inner₁⟩, hbody, h⟩ := Except.bind_eq_ok_iff.1 h
  obtain ⟨ts₃, hclose, h⟩ := Except.bind_eq_ok_iff.1 h
  obtain ⟨⟨closed, pr₂⟩, hclosed, h⟩ := Except.bind_eq_ok_iff.1 h
  obtain ⟨rfl, rfl, rfl⟩ := by simpa using h
  obtain ⟨hflags, r, hr, rfl, hread⟩ := halternatives.closed he hmove hbody hclose
  refine ⟨opening.close_flags henter hflags hclosed, r, hr, rfl, fun fuel' hfuel => ?_⟩
  obtain ⟨fuel', rfl⟩ : ∃ n, fuel' = n + 1 := ⟨fuel' - 1, by omega⟩
  rw [readGroup_encloses (opening.encloses_shift k ▸ hencloses), opening.enter_shift k henter]
  simp only [bind, Except.bind, hread fuel' (by omega), expectClose, opening.close_shift k hclosed]
  rfl

omit he' in
theorem readGroup_condition_splice {fuel : Nat} (hsequences : SequencesSplice k e e' fuel)
    {index : Nat} {u ts : List Token} {pr pr₁ : Progress} {node : Option Node}
    (hmove : IsMovable k false u)
    (h : readGroup (fuel + 1) (.condition index) (u ++ e) pr = .ok (node, ts, pr₁)) :
    pr₁.flags = pr.flags ∧ ∃ r, r <:+ u ∧ ts = r ++ e ∧
      ∀ fuel', 3 * (u ++ e').length + 2 < fuel' →
        readGroup fuel' (.condition (index + k)) (u ++ e') (pr.shift k) =
          .ok (node.map (Node.shift k), r ++ e', pr₁.shift k) := by
  simp only [readGroup] at h
  obtain ⟨⟨yes, ts₂, pr₂⟩, hyes, h⟩ := Except.bind_eq_ok_iff.1 h
  split at h
  · -- a second branch behind a bar, read like the first one
    next ts₃ heq =>
      obtain rfl : ts₂ = _ := heq
      obtain ⟨⟨no, ts₄, pr₄⟩, hno, h⟩ := Except.bind_eq_ok_iff.1 h
      obtain ⟨ts₅, hclose, h⟩ := Except.bind_eq_ok_iff.1 h
      obtain rfl := expectClose_eq_ok hclose
      obtain ⟨rfl, rfl, rfl⟩ := by simpa using h
      obtain ⟨hflags, harrives⟩ := hsequences hmove hyes fun _ => List.cons_ne_nil _ _
      obtain ⟨r, hr, rfl, hread⟩ := harrives.cons he (by decide)
      obtain ⟨hflags', harrives'⟩ :=
        hsequences (hmove.suffix hr) hno fun _ => List.cons_ne_nil _ _
      obtain ⟨r', hr', rfl, hread'⟩ := harrives'.cons he (by decide)
      refine ⟨hflags'.trans hflags, r', hr'.trans hr, rfl, fun fuel' hfuel => ?_⟩
      have hlength := hr.length_le
      obtain ⟨fuel', rfl⟩ : ∃ n, fuel' = n + 1 := ⟨fuel' - 1, by omega⟩
      have hyes' := hread fuel' (by omega) false
      have hno' := hread' fuel' (by simp only [List.length_append] at hfuel ⊢; omega) false
      rw [List.map_nil] at hyes' hno'
      simp only [readGroup, hyes', hno', expectClose, bind, Except.bind, sequence_shift]
      rfl
  · next hbar =>
      obtain ⟨ts₃, hclose, h⟩ := Except.bind_eq_ok_iff.1 h
      obtain rfl := expectClose_eq_ok hclose
      obtain ⟨rfl, rfl, rfl⟩ := by simpa using h
      obtain ⟨hflags, harrives⟩ := hsequences hmove hyes fun _ => List.cons_ne_nil _ _
      obtain ⟨r, hr, rfl, hread⟩ := harrives.cons he (by decide)
      refine ⟨hflags, r, hr, rfl, fun fuel' hfuel => ?_⟩
      obtain ⟨fuel', rfl⟩ : ∃ n, fuel' = n + 1 := ⟨fuel' - 1, by omega⟩
      have hyes' := hread fuel' (by omega) false
      rw [List.map_nil] at hyes'
      simp only [readGroup, hyes', expectClose, bind, Except.bind, sequence_shift]
      rfl

omit he' in
theorem groupsSplice_succ {fuel : Nat} (halternatives : AlternativesSplice k e e' fuel)
    (hsequences : SequencesSplice k e e' fuel) : GroupsSplice k e e' (fuel + 1) := by
  intro opening u ts pr pr₁ node hmove hwhole h
  cases opening with
  | whole f => cases hwhole
  | done node' =>
      obtain ⟨rfl, rfl, rfl⟩ := by simpa [readGroup] using h
      refine ⟨rfl, u, List.suffix_rfl, rfl, fun fuel' hfuel => ?_⟩
      obtain ⟨fuel', rfl⟩ : ∃ n, fuel' = n + 1 := ⟨fuel' - 1, by omega⟩
      rfl
  | condition index => exact readGroup_condition_splice he hsequences hmove h
  | _ => exact readGroup_encloses_splice he halternatives rfl hmove h

/-! ### Whole expressions -/

omit he he' in
theorem splices_zero : SequencesSplice k e e' 0 ∧ FurtherSplices k e e' 0 ∧
    AlternativesSplice k e e' 0 ∧ GroupsSplice k e e' 0 := by
  refine ⟨?_, ?_, ?_, ?_⟩
  · intro _ _ _ _ _ _ _ _ h
    cases h
  · intro _ _ _ _ _ _ _ _ h
    cases h
  · intro _ _ _ _ _ _ _ h
    cases h
  · intro _ _ _ _ _ _ _ _ h
    cases h

/-- All is read alike in front of another end, by induction on the fuel. -/
theorem splices (fuel : Nat) : SequencesSplice k e e' fuel ∧ FurtherSplices k e e' fuel ∧
    AlternativesSplice k e e' fuel ∧ GroupsSplice k e e' fuel := by
  induction fuel with
  | zero => exact splices_zero
  | succ fuel ih =>
      obtain ⟨hsequences, hfurther, halternatives, hgroups⟩ := ih
      have halternatives' := alternativesSplice_succ he' hsequences hfurther
      exact ⟨sequencesSplice_succ he he' hsequences hgroups, furtherSplices_succ halternatives',
        halternatives', groupsSplice_succ he halternatives hsequences⟩

/-- What is read to the end of its tokens is read up to another end as well. It is the same there,
with later groups, unless an anchor is left out. -/
theorem readChoice_replace {fuel₁ fuel₂ : Nat} {leading : Bool} {u : List Token}
    {pr pr₁ : Progress} {node : Node} (hmove : IsMovable k leading u)
    (hverbose : pr.flags.verbose = false)
    (h : readChoice fuel₁ fuel₂ leading [] (u ++ e) pr = .ok (node, [], pr₁)) :
    pr₁.flags = pr.flags ∧ ∃ node', (e = [] → node' = node) ∧
      ∀ fuel', 3 * (u ++ e').length + 1 < fuel' → ∀ top',
        readAlternatives fuel' top' (u ++ e') (pr.shift k) =
          .ok (node'.shift k, e', pr₁.shift k) := by
  obtain ⟨hsequences, -⟩ := splices (k := k) he he' fuel₁
  obtain ⟨-, hfurther, -⟩ := splices (k := k) he he' fuel₂
  obtain ⟨hflags, harrives⟩ :=
    readChoice_splice he' hsequences hfurther hmove h (by simp [hverbose])
  refine ⟨hflags, ?_⟩
  generalize hts : ([] : List Token) = ts at harrives
  cases harrives with
  | inside hne hr hread => exact absurd (List.append_eq_nil_iff.1 hts.symm).1 hne
  | @atEnd node' _ hsame hread => exact ⟨node', hsame, hread⟩

end Splicing

end Pattern

end Raml
