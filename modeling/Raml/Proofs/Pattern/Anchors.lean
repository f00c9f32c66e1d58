import Raml.Proofs.Pattern.SplicedSequences
import Raml.Proofs.Resource.Templates

/-! # Expressions without their anchors

An anchor at the start of an expression and one at its end can be left out: what is left compiles if
the expression does. A sign at the end that stands behind a backslash is no anchor. Leaving it out
leaves the backslash, so the two ways to leave out anchors, by characters and by tokens, agree only
where no such sign comes last.
-/

namespace Raml

namespace Pattern

/-! ## The text of tokens -/

theorem tokenText_append (ts us : List Token) :
    tokenText (ts ++ us) = tokenText ts ++ tokenText us :=
  List.flatMap_append

theorem tokenText_cons (t : Token) (ts : List Token) :
    tokenText (t :: ts) = tokenText [t] ++ tokenText ts :=
  tokenText_append [t] ts

/-- Tokens are no lone backslashes, and their text is what they were cut from. -/
theorem tokenText_of_tokens? {cs : List Char} {ts : List Token} (h : tokens? cs = some ts) :
    tokenText ts = cs ∧ .plain '\\' ∉ ts := by
  fun_induction tokens? cs generalizing ts with
  | case1 =>
      obtain rfl := Option.some.inj h
      exact ⟨rfl, List.not_mem_nil⟩
  | case2 => cases h
  | case3 c rest ih =>
      obtain ⟨ts, hrest, rfl⟩ := Option.map_eq_some_iff.1 h
      obtain ⟨rfl, hproper⟩ := ih hrest
      exact ⟨rfl, by simpa using hproper⟩
  | case4 c rest hnil hcons ih =>
      obtain ⟨ts, hrest, rfl⟩ := Option.map_eq_some_iff.1 h
      obtain ⟨rfl, hproper⟩ := ih hrest
      have hc : '\\' ≠ c := by
        rintro rfl
        cases hts : tokenText ts with
        | nil => exact hnil rfl hts
        | cons d rest => exact hcons d rest rfl hts
      exact ⟨rfl, by simpa [hc] using hproper⟩

theorem tokens?_tokenText {ts : List Token} (h : .plain '\\' ∉ ts) :
    tokens? (tokenText ts) = some ts := by
  induction ts with
  | nil => rfl
  | cons t ts ih =>
      have hts : tokens? (tokenText ts) = some ts := ih fun hmem => h (List.mem_cons_of_mem t hmem)
      rw [tokenText_cons]
      cases t with
      | escaped c => exact tokens?_append (a := ['\\', c]) rfl hts
      | plain c =>
          have hc : c ≠ '\\' := fun heq => h (heq ▸ List.mem_cons_self)
          show tokens? (c :: tokenText ts) = _
          rw [tokens?_cons hc, hts]
          rfl

/-! ## Anchors -/

def stripStart : List Token → List Token
  | .plain '^' :: ts => ts
  | ts => ts

def stripStop (ts : List Token) : List Token :=
  if ts.getLast? = some (.plain '$') then ts.dropLast else ts

/-- An expression without an anchor at its start and without one at its end. A sign behind a
backslash is no anchor. -/
def unanchored (pattern : String) : String :=
  match tokens? pattern.toList with
  | some ts => String.ofList (tokenText (stripStop (stripStart ts)))
  | none => pattern

/-- Whether an expression can be put inside another without its anchors: no escaped sign comes last
that its anchor could be taken for, no flags are set for the whole, and groups are referred to by
their names only. -/
def standsAlone (pattern : String) : Bool :=
  match tokens? pattern.toList with
  | some ts => ts.getLast? ≠ some (.escaped '$') && isSelfContained (stripStop (stripStart ts))
  | none => false

theorem stripStart_cases (ts : List Token) :
    ts = .plain '^' :: stripStart ts ∨
      (stripStart ts = ts ∧ ts.head? ≠ some (.plain '^')) := by
  unfold stripStart
  split
  · exact .inl rfl
  · next h =>
      refine .inr ⟨rfl, fun hhead => ?_⟩
      obtain ⟨rest, heq⟩ := List.head?_eq_some_iff.1 hhead
      exact h rest heq

/-- What is stripped at the end is an anchor or nothing. -/
theorem stripStop_append (ts : List Token) : ∃ e, IsOpenEnd e ∧ ts = stripStop ts ++ e := by
  unfold stripStop
  split
  · next h => exact ⟨[.plain '$'], .inr rfl, (List.dropLast_append_getLast? _ h).symm⟩
  · exact ⟨[], .inl rfl, (List.append_nil ts).symm⟩

theorem head?_tokenText {ts : List Token} (h : .plain '\\' ∉ ts) {c : Char} (hc : c ≠ '\\') :
    (tokenText ts).head? = some c ↔ ts.head? = some (.plain c) := by
  cases ts with
  | nil => simp [tokenText]
  | cons t ts =>
      rw [tokenText_cons]
      cases t with
      | plain d => simp [tokenText]
      | escaped d => simpa [tokenText] using hc.symm

theorem getLast?_tokenText (ts : List Token) (c : Char) : (tokenText ts).getLast? = some c ↔
    ts.getLast? = some (.plain c) ∨ ts.getLast? = some (.escaped c) := by
  rcases List.eq_nil_or_concat ts with rfl | ⟨us, t, rfl⟩
  · simp [tokenText]
  · rw [List.concat_eq_append, tokenText_append]
    cases t <;> simp [tokenText]

theorem stripStart_suffix (ts : List Token) : stripStart ts <:+ ts := by
  rcases stripStart_cases ts with h | ⟨h, -⟩
  · exact ⟨[.plain '^'], h.symm⟩
  · rw [h]

theorem tokenText_stripStart {ts : List Token} (h : .plain '\\' ∉ ts) :
    (if (tokenText ts).head? = some '^' then (tokenText ts).drop 1 else tokenText ts) =
      tokenText (stripStart ts) := by
  simp only [head?_tokenText h (by decide : '^' ≠ '\\')]
  rcases stripStart_cases ts with heq | ⟨heq, hhead⟩
  · rw [heq]
    rfl
  · rw [if_neg hhead, heq]

theorem tokenText_stripStop {ts : List Token} (h : ts.getLast? ≠ some (.escaped '$')) :
    (if (tokenText ts).getLast? = some '$' then (tokenText ts).dropLast else tokenText ts) =
      tokenText (stripStop ts) := by
  simp only [getLast?_tokenText, or_iff_left h, stripStop]
  split
  · next hlast =>
      conv_lhs => rw [← List.dropLast_append_getLast? _ hlast, tokenText_append]
      exact List.dropLast_concat
  · rfl

/-- Where no escaped sign comes last, the anchors are the first and the last character. -/
theorem withoutAnchors_eq {pattern : String} {ts : List Token}
    (htokens : tokens? pattern.toList = some ts) (hlast : ts.getLast? ≠ some (.escaped '$')) :
    Template.withoutAnchors pattern = unanchored pattern := by
  obtain ⟨htext, hproper⟩ := tokenText_of_tokens? htokens
  have hlast' : (stripStart ts).getLast? ≠ some (.escaped '$') := fun h => by
    obtain ⟨front, heq⟩ := stripStart_suffix ts
    exact hlast (by rw [← heq, List.getLast?_append, h]; rfl)
  simp only [Template.withoutAnchors, Text.startsIn, ← htext, decide_eq_true_eq, unanchored,
    tokens?_tokenText hproper, tokenText_stripStart hproper, tokenText_stripStop hlast']

theorem tokens?_unanchored {pattern : String} {ts : List Token}
    (htokens : tokens? pattern.toList = some ts) :
    tokens? (unanchored pattern).toList = some (stripStop (stripStart ts)) := by
  obtain ⟨-, hproper⟩ := tokenText_of_tokens? htokens
  obtain ⟨e, -, heq⟩ := stripStop_append (stripStart ts)
  have hsub : stripStop (stripStart ts) ⊆ ts := fun t ht =>
    (stripStart_suffix ts).subset (heq ▸ List.mem_append_left e ht)
  simp only [unanchored, htokens, String.toList_ofList]
  exact tokens?_tokenText fun hmem => hproper (hsub hmem)

/-! ## Behind an anchor -/

section Behind

variable {p : Node} (hp : isRepeatable p = false)
include hp

omit hp in
theorem readOpened_behind {fuel : Nat} {leading : Bool} {parts nodes : List Node}
    {rest ts : List Token} {pr pr₁ : Progress}
    (h : readOpened fuel leading (p :: parts) rest pr = .ok (some (nodes, ts, pr₁))) :
    ∃ nodes', nodes = p :: nodes' ∧ ∀ leading',
      readOpened fuel leading' parts rest pr = .ok (some (nodes', ts, pr₁)) := by
  obtain ⟨⟨opening, rest₂, pr₂⟩, hopening, h⟩ := Except.bind_eq_ok_iff.1 h
  cases opening with
  | whole f => simp [refuse] at h
  | _ =>
      obtain ⟨⟨node, rest₃, pr₃⟩, hgroup, h⟩ := Except.bind_eq_ok_iff.1 h
      obtain ⟨rfl, rfl, rfl⟩ := by simpa using h
      refine ⟨parts ++ node.toList, rfl, fun leading' => ?_⟩
      simp [readOpened, hopening, hgroup, bind, Except.bind]

theorem readRepeated_behind {parts nodes : List Node} {c : Char} {rest ts : List Token}
    {pr pr₁ : Progress}
    (h : readRepeated (p :: parts) c rest pr = .ok (some (nodes, ts, pr₁))) :
    ∃ nodes', nodes = p :: nodes' ∧
      readRepeated parts c rest pr = .ok (some (nodes', ts, pr₁)) := by
  obtain ⟨bounds, hbounds, h⟩ := Except.bind_eq_ok_iff.1 h
  rcases bounds with _ | ⟨least, most, rest₂⟩
  · obtain ⟨rfl, rfl, rfl⟩ := by simpa using h
    exact ⟨_, rfl, by simp [readRepeated, hbounds, bind, Except.bind]⟩
  · cases parts with
    | nil => simp [hp, refuse] at h
    | cons q parts =>
        simp only [List.getLast?_cons_cons, List.dropLast_cons_cons] at h
        cases hlast : (q :: parts).getLast? with
        | none =>
            rw [hlast] at h
            cases h
        | some last =>
            simp only [hlast] at h
            split at h
            · next hrepeat =>
                obtain ⟨rfl, rfl, rfl⟩ := by simpa using h
                refine ⟨_, rfl, ?_⟩
                simp [readRepeated, hbounds, hlast, hrepeat, bind, Except.bind]
            · cases h

theorem readPart_behind {fuel : Nat} {leading : Bool} {parts nodes : List Node} {t : Token}
    {rest ts : List Token} {pr pr₁ : Progress}
    (h : readPart fuel leading (p :: parts) t rest pr = .ok (some (nodes, ts, pr₁))) :
    ∃ nodes', nodes = p :: nodes' ∧ ∀ leading',
      readPart fuel leading' parts t rest pr = .ok (some (nodes', ts, pr₁)) := by
  cases t with
  | escaped c =>
      obtain ⟨⟨node, rest₂⟩, hnode, h⟩ := Except.bind_eq_ok_iff.1 h
      obtain ⟨rfl, rfl, rfl⟩ := by simpa using h
      exact ⟨parts ++ [node], rfl, fun leading' => by simp [readPart, hnode, bind, Except.bind]⟩
  | plain c =>
      simp only [readPart] at h ⊢
      split at h
      · cases h
      next hstop =>
      split at h
      next hskip =>
          obtain ⟨rfl, rfl, rfl⟩ := by simpa using h
          exact ⟨parts, rfl, fun _ => by rw [if_neg hstop, if_pos hskip]⟩
      next hskip =>
      split at h
      next hcomment =>
          obtain ⟨rfl, rfl, rfl⟩ := by simpa using h
          exact ⟨parts, rfl, fun _ => by rw [if_neg hstop, if_neg hskip, if_pos hcomment]⟩
      next hcomment =>
      simp only [if_neg hstop, if_neg hskip, if_neg hcomment]
      split at h
      next hset =>
          obtain ⟨⟨node, rest₂⟩, hnode, h⟩ := Except.bind_eq_ok_iff.1 h
          obtain ⟨rfl, rfl, rfl⟩ := by simpa using h
          exact ⟨parts ++ [node], rfl, fun _ => by simp [hset, hnode, bind, Except.bind]⟩
      next hset =>
      simp only [if_neg hset]
      split at h
      next hopen =>
          simp only [if_pos hopen]
          exact readOpened_behind h
      next hopen =>
          simp only [if_neg hopen]
          obtain ⟨nodes', rfl, hread⟩ := readRepeated_behind hp h
          exact ⟨nodes', rfl, fun _ => hread⟩

theorem readSequence_behind {fuel : Nat} {leading : Bool} {parts nodes : List Node}
    {ts ts' : List Token} {pr pr₁ : Progress}
    (h : readSequence fuel leading (p :: parts) ts pr = .ok (nodes, ts', pr₁)) :
    ∃ nodes', nodes = p :: nodes' ∧ ∀ leading',
      readSequence fuel leading' parts ts pr = .ok (nodes', ts', pr₁) := by
  induction fuel generalizing parts ts pr with
  | zero => cases h
  | succ fuel ih =>
      cases ts with
      | nil =>
          obtain ⟨rfl, rfl, rfl⟩ := by simpa [readSequence_nil] using h
          exact ⟨parts, rfl, fun leading' => readSequence_nil ..⟩
      | cons t rest =>
          rw [readSequence_cons] at h
          obtain ⟨_ | ⟨parts₂, ts₂, pr₂⟩, hpart, h⟩ := Except.bind_eq_ok_iff.1 h
          · obtain ⟨rfl, rfl, rfl⟩ := by simpa using h
            refine ⟨parts, rfl, fun leading' => ?_⟩
            rw [readSequence_cons, readPart_stop (readPart_eq_none hpart)]
            rfl
          · obtain ⟨parts₃, rfl, hread⟩ := readPart_behind hp hpart
            obtain ⟨nodes', rfl, hrest⟩ := ih h
            refine ⟨nodes', rfl, fun leading' => ?_⟩
            rw [readSequence_cons, hread leading']
            exact hrest leading'

omit hp in
theorem readFurther_first {fuel : Nat} {first node : Node} {ts ts' : List Token}
    {pr pr₁ : Progress} (h : readFurther fuel first ts pr = .ok (node, ts', pr₁)) (first' : Node) :
    ∃ node', readFurther fuel first' ts pr = .ok (node', ts', pr₁) := by
  cases fuel with
  | zero => cases h
  | succ fuel =>
      by_cases hbar : ∃ v, ts = .plain '|' :: v
      · obtain ⟨v, rfl⟩ := hbar
        rw [readFurther_bar, Except.map_eq_ok_iff] at h
        obtain ⟨others, hothers, heq⟩ := h
        obtain ⟨-, hrest⟩ := Prod.mk.inj heq
        refine ⟨.alt first' others.1, ?_⟩
        rw [readFurther_bar, hothers, ← hrest]
        rfl
      · have hstop : ∀ rest, ts ≠ .plain '|' :: rest := fun rest heq => hbar ⟨rest, heq⟩
        rw [readFurther_stop hstop] at h
        obtain ⟨rfl, rfl, rfl⟩ := by simpa using h
        exact ⟨first', readFurther_stop hstop fuel first' pr⟩

theorem readChoice_behind {fuel fuel' : Nat} {leading : Bool} {parts : List Node} {node : Node}
    {ts ts' : List Token} {pr pr₁ : Progress}
    (h : readChoice fuel fuel' leading (p :: parts) ts pr = .ok (node, ts', pr₁)) :
    ∃ node', readChoice fuel fuel' leading parts ts pr = .ok (node', ts', pr₁) := by
  obtain ⟨⟨nodes, ts₂, pr₂⟩, hsequence, h⟩ := Except.bind_eq_ok_iff.1 h
  obtain ⟨nodes', rfl, hread⟩ := readSequence_behind hp hsequence
  obtain ⟨node', hfurther⟩ := readFurther_first h (sequence nodes')
  exact ⟨node', by rw [readChoice, hread leading]; exact hfurther⟩

end Behind

/-! ## Whole expressions -/

def Progress.initial : Progress := ⟨.none, 1, [], [], none, []⟩

theorem Progress.initial_isClear : Progress.initial.IsClear := ⟨rfl, rfl⟩

/-- Whether a condition names a group that the expression does not have. -/
def Progress.asksTooMuch (pr : Progress) : Bool :=
  pr.conditions.any fun g => pr.groupCount ≤ g

theorem Progress.asksTooMuch_shift (k : Nat) (pr : Progress) :
    (pr.shift k).asksTooMuch = pr.asksTooMuch := by
  simp only [asksTooMuch, Progress.shift, List.any_map, Function.comp_def,
    Nat.add_le_add_iff_right]

theorem read_eq_ok_iff {source : String} {node : Node} : read source = .ok node ↔
    ∃ ts pr, tokens? source.toList = some ts ∧
      readAlternatives (3 * ts.length + 3) true ts .initial = .ok (node, [], pr) ∧
      (pr.flags.ascii && pr.flags.unicode) = false ∧ pr.asksTooMuch = false := by
  unfold read
  cases htokens : tokens? source.toList with
  | none => simp [refuse]
  | some ts =>
      simp only [Option.some.injEq]
      constructor
      · intro h
        obtain ⟨⟨node', rest, pr⟩, halternatives, h⟩ := Except.bind_eq_ok_iff.1 h
        simp only at h
        split at h
        · cases h
        next hflags =>
        split at h
        · cases h
        next hrest =>
        obtain rfl := Except.ok.inj h
        obtain ⟨hnil, hconditions⟩ := not_or.1 (mt Bool.or_eq_true_iff.2 hrest)
        obtain rfl : rest = [] := by simpa using hnil
        exact ⟨ts, pr, rfl, halternatives, eq_false_of_ne_true hflags,
          eq_false_of_ne_true hconditions⟩
      · rintro ⟨_, pr, rfl, halternatives, hflags, hconditions⟩
        refine Except.bind_eq_ok_iff.2 ⟨_, halternatives, ?_⟩
        unfold Progress.asksTooMuch at hconditions
        simp [hflags, hconditions]

theorem read_unanchored {pattern : String} {node : Node} (h : read pattern = .ok node)
    (halone : standsAlone pattern = true) :
    ∃ us inner, tokens? (unanchored pattern).toList = some us ∧ isSelfContained us = true ∧
      Template.withoutAnchors pattern = unanchored pattern ∧
      read (unanchored pattern) = .ok inner := by
  obtain ⟨ts, pr, htokens, halternatives, -, hconditions⟩ := read_eq_ok_iff.1 h
  obtain ⟨hlast, hself⟩ : ts.getLast? ≠ some (.escaped '$') ∧
      isSelfContained (stripStop (stripStart ts)) = true := by
    simpa [standsAlone, htokens] using halone
  have htokens' := tokens?_unanchored htokens
  obtain ⟨e, he, heq⟩ := stripStop_append (stripStart ts)
  generalize stripStop (stripStart ts) = us at hself htokens' heq
  -- without the anchor in front, if there is one, what comes behind it is read with less fuel
  obtain ⟨fuel₁, fuel₂, node', hchoice⟩ : ∃ fuel₁ fuel₂ node',
      readChoice fuel₁ fuel₂ true [] (us ++ e) .initial = .ok (node', [], pr) := by
    rw [← heq]
    rcases stripStart_cases ts with hstart | ⟨hstart, -⟩
    · rw [hstart, List.length_cons, readAlternatives_eq, readChoice,
        readSequence_plain _ _ _ _ Progress.initial_isClear (by decide) rfl] at halternatives
      have hbehind : readChoice _ _ true [.place (.start false)] (stripStart ts) .initial =
        .ok (node, [], pr) := halternatives
      obtain ⟨node', hchoice⟩ := readChoice_behind rfl hbehind
      exact ⟨_, _, node', hchoice⟩
    · rw [readAlternatives_eq] at halternatives
      exact ⟨_, _, node, hstart.symm ▸ halternatives⟩
  obtain ⟨hflags, node'', -, hread⟩ :=
    readChoice_replace (k := 0) he (.inl rfl : IsShut []) (.inl hself) rfl hchoice
  simp only [Progress.shift_zero, Node.shift_zero, List.append_nil] at hread
  refine ⟨us, node'', htokens', hself, withoutAnchors_eq htokens hlast, ?_⟩
  refine read_eq_ok_iff.2 ⟨us, pr, htokens', hread _ (by omega) true, ?_, hconditions⟩
  rw [hflags]
  rfl

/-! ## Inside a group -/

/-- An expression read as what a group contains that is opened in front of it. -/
def readInGroup (source : String) : Except Problem Node :=
  match tokens? source.toList with
  | none => refuse
  | some ts => do
      let (node, rest, pr) ←
        readAlternatives (3 * ts.length + 3) false ts (Progress.initial.shift 1)
      if !rest.isEmpty || pr.asksTooMuch then refuse else .ok node

theorem readInGroup_eq_ok_iff {source : String} {node : Node} : readInGroup source = .ok node ↔
    ∃ ts pr, tokens? source.toList = some ts ∧
      readAlternatives (3 * ts.length + 3) false ts (Progress.initial.shift 1) =
        .ok (node, [], pr) ∧ pr.asksTooMuch = false := by
  unfold readInGroup
  cases htokens : tokens? source.toList with
  | none => simp [refuse]
  | some ts =>
      simp only [Option.some.injEq]
      constructor
      · intro h
        obtain ⟨⟨node', rest, pr⟩, halternatives, h⟩ := Except.bind_eq_ok_iff.1 h
        simp only at h
        split at h
        · cases h
        next hrest =>
        obtain rfl := Except.ok.inj h
        obtain ⟨hnil, hconditions⟩ := not_or.1 (mt Bool.or_eq_true_iff.2 hrest)
        obtain rfl : rest = [] := by simpa using hnil
        exact ⟨ts, pr, rfl, halternatives, eq_false_of_ne_true hconditions⟩
      · rintro ⟨_, pr, rfl, halternatives, hconditions⟩
        refine Except.bind_eq_ok_iff.2 ⟨_, halternatives, ?_⟩
        simp [hconditions]

/-- An expression that stands alone is read inside a group as it is read without its anchors, with
its groups numbered one later. -/
theorem readInGroup_of_standsAlone {pattern : String} {node : Node} (h : read pattern = .ok node)
    (halone : standsAlone pattern = true) : ∃ inner, read (unanchored pattern) = .ok inner ∧
      readInGroup (Template.withoutAnchors pattern) = .ok (inner.shift 1) := by
  obtain ⟨us, inner, htokens, hself, hanchors, hinner⟩ := read_unanchored h halone
  refine ⟨inner, hinner, ?_⟩
  obtain ⟨us', pr, htokens', halternatives, -, hconditions⟩ := read_eq_ok_iff.1 hinner
  rw [htokens] at htokens'
  obtain rfl := Option.some.inj htokens'
  rw [readAlternatives_eq, ← List.append_nil us] at halternatives
  obtain ⟨-, inner', hsame, hread⟩ := readChoice_replace (k := 1) (.inl rfl : IsOpenEnd [])
    (.inl rfl : IsShut []) (.inl hself) rfl halternatives
  obtain rfl := hsame rfl
  rw [List.append_nil] at hread
  rw [hanchors]
  exact readInGroup_eq_ok_iff.2 ⟨us, pr.shift 1, htokens, hread _ (by omega) false,
    (Progress.asksTooMuch_shift 1 pr).trans hconditions⟩

end Pattern

end Raml
