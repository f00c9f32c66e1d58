import Mathlib.Computability.Language
import Raml.Pattern.Matcher

/-! # What expressions take

A runner goes on behind each text that it can take, until what follows accepts.
Whether it finds a way is told by the language of these texts alone, as long as
what follows does not look at groups. Languages of parts are put together as
the parts are.
-/

namespace Raml

namespace Pattern

/-! ## Cursors -/

namespace Cursor

def after (s : Cursor) (taken : List Char) : Cursor :=
  { s with
    position := s.position + taken.length
    before := taken.reverse ++ s.before
    rest := s.rest.drop taken.length }

theorem after_after (s : Cursor) (a b : List Char) : (s.after a).after b = s.after (a ++ b) := by
  simp [after, Nat.add_assoc, List.drop_drop]

theorem rest_after {s : Cursor} {taken rest : List Char} (h : s.rest = taken ++ rest) :
    (s.after taken).rest = rest := by
  simp [after, h]

theorem next?_of_cons {s : Cursor} {c : Char} {rest : List Char} (h : s.rest = c :: rest) :
    s.next? = some (c, s.after [c]) := by
  simp [next?, after, h]

end Cursor

/-! ## Runners -/

/-- Whether it makes no difference to a continuation what the groups matched. -/
def IsBlind (k : Continuation) : Prop :=
  ∀ s groups, (k { s with groups }).isSome = (k s).isSome

def Takes (run : Runner) (L : Language Char) : Prop :=
  ∀ s k, IsBlind k → ((run s k).isSome = true ↔
    ∃ taken rest, s.rest = taken ++ rest ∧ taken ∈ L ∧ (k (s.after taken)).isSome = true)

section Runners

variable {run run' : Runner} {L M : Language Char} {k : Continuation}

theorem isBlind_some : IsBlind some := fun _ _ => rfl

/-- What follows a runner does not look at groups if the runner's own continuation does not. -/
theorem Takes.isBlind (h : Takes run L) (hk : IsBlind k) : IsBlind fun s => run s k := by
  intro s groups
  have hwith := h { s with groups } k hk
  rw [Bool.eq_iff_iff, hwith, h s k hk]
  refine exists_congr fun taken => exists_congr fun rest => ?_
  rw [← hk (s.after taken) groups]
  rfl

theorem takes_nothing : Takes (fun s k => k s) 1 := by
  intro s k _
  constructor
  · intro h
    exact ⟨[], s.rest, rfl, rfl, h⟩
  · rintro ⟨taken, rest, -, rfl, h⟩
    exact h

theorem Takes.then (h : Takes run L) (h' : Takes run' M) :
    Takes (fun s k => run s fun s' => run' s' k) (L * M) := by
  intro s k hk
  rw [h s _ (h'.isBlind hk)]
  constructor
  · rintro ⟨a, rest, hs, ha, hrun⟩
    obtain ⟨b, rest', hs', hb, hb'⟩ := (h' _ k hk).1 hrun
    rw [Cursor.rest_after hs] at hs'
    rw [Cursor.after_after] at hb'
    exact ⟨a ++ b, rest', by rw [hs, hs', List.append_assoc], ⟨a, ha, b, hb, rfl⟩, hb'⟩
  · rintro ⟨_, rest, hs, ⟨a, ha, b, hb, rfl⟩, hk'⟩
    have hs' : s.rest = a ++ (b ++ rest) := by rw [hs, List.append_assoc]
    rw [← Cursor.after_after] at hk'
    exact ⟨a, b ++ rest, hs', ha, (h' _ k hk).2 ⟨b, rest, Cursor.rest_after hs', hb, hk'⟩⟩

theorem Takes.or (h : Takes run L) (h' : Takes run' M) :
    Takes (fun s k => (run s k).or (run' s k)) (L + M) := by
  intro s k hk
  rw [Option.isSome_or, Bool.or_eq_true, h s k hk, h' s k hk]
  constructor
  · rintro (⟨taken, rest, hs, htaken, hk'⟩ | ⟨taken, rest, hs, htaken, hk'⟩)
    · exact ⟨taken, rest, hs, .inl htaken, hk'⟩
    · exact ⟨taken, rest, hs, .inr htaken, hk'⟩
  · rintro ⟨taken, rest, hs, htaken | htaken, hk'⟩
    · exact .inl ⟨taken, rest, hs, htaken, hk'⟩
    · exact .inr ⟨taken, rest, hs, htaken, hk'⟩

/-- What a group records is of no account. -/
theorem Takes.recorded (h : Takes run L) (index : Nat) :
    Takes (fun s k => run s fun s' => k (s'.record index (s'.since s))) L := by
  intro s k hk
  have hrecord : ∀ (s' : Cursor) text, (k (s'.record index text)).isSome = (k s').isSome :=
    fun s' text => hk s' _
  have hblind : IsBlind fun s' => k (s'.record index (s'.since s)) := by
    intro s' groups
    rw [hrecord, hrecord, hk]
  rw [h s _ hblind]
  simp only [hrecord]

end Runners

/-! ## Single characters -/

def single (test : Char → Bool) : Language Char :=
  {w | ∃ c, test c = true ∧ w = [c]}

def exactly (test : Char → Bool) (n : Nat) : Language Char :=
  {w | w.length = n ∧ ∀ c ∈ w, test c = true}

/-- The texts of characters that satisfy a test, at most so many if there is a limit. -/
def upTo (test : Char → Bool) (limit : Option Nat) : Language Char :=
  {w | (∀ n, limit = some n → w.length ≤ n) ∧ ∀ c ∈ w, test c = true}

section Characters

variable (test : Char → Bool)

theorem runChar_cons {s : Cursor} {c : Char} {rest : List Char} (h : s.rest = c :: rest)
    (k : Continuation) : runChar test s k = if test c = true then k (s.after [c]) else none := by
  simp [runChar, Cursor.next?_of_cons h]

theorem runChar_nil {s : Cursor} (h : s.rest = []) (k : Continuation) :
    runChar test s k = none := by
  simp [runChar, Cursor.next?, h]

theorem takes_runChar : Takes (runChar test) (single test) := by
  intro s k _
  constructor
  · intro h
    cases hs : s.rest with
    | nil =>
        rw [runChar_nil test hs] at h
        cases h
    | cons c rest =>
        rw [runChar_cons test hs] at h
        split at h
        · next hc => exact ⟨[c], rest, rfl, ⟨c, hc, rfl⟩, h⟩
        · cases h
  · rintro ⟨_, rest, hs, ⟨c, hc, rfl⟩, h⟩
    rw [runChar_cons test hs, if_pos hc]
    exact h

theorem takes_runTimes (n : Nat) : Takes (runTimes (runChar test) n) (exactly test n) := by
  induction n with
  | zero =>
      have h : exactly test 0 = 1 := by
        ext w
        simp only [exactly, Language.mem_one, List.length_eq_zero_iff]
        constructor
        · exact And.left
        · rintro rfl
          exact ⟨rfl, by simp⟩
      rw [h]
      exact takes_nothing
  | succ n ih =>
      have h : exactly test (n + 1) = single test * exactly test n := by
        ext w
        rw [Language.mem_mul]
        constructor
        · rintro ⟨hlength, htest⟩
          cases w with
          | nil => cases hlength
          | cons c rest =>
              rw [List.forall_mem_cons] at htest
              exact ⟨[c], ⟨c, htest.1, rfl⟩, rest, ⟨Nat.succ.inj hlength, htest.2⟩, rfl⟩
        · rintro ⟨_, ⟨c, hc, rfl⟩, rest, ⟨rfl, htest⟩, rfl⟩
          exact ⟨by simp, by simpa [hc] using htest⟩
      rw [h]
      exact (takes_runChar test).then ih

/-- So many characters and further ones, up to a limit, are at least so many and at most as many
more as the limit says. -/
theorem mem_exactly_mul_upTo {n : Nat} {limit : Option Nat} {w : List Char} :
    w ∈ exactly test n * upTo test limit ↔
      n ≤ w.length ∧ (∀ m, limit = some m → w.length ≤ n + m) ∧ ∀ c ∈ w, test c = true := by
  rw [Language.mem_mul]
  constructor
  · rintro ⟨a, ⟨rfl, ha⟩, b, ⟨hlimit, hb⟩, rfl⟩
    rw [List.forall_mem_append, List.length_append]
    exact ⟨by omega, fun m hm => by have hle := hlimit m hm; omega, ha, hb⟩
  · rintro ⟨hlength, hlimit, hw⟩
    refine ⟨w.take n, ⟨List.length_take_of_le hlength, ?_⟩, w.drop n, ⟨fun m hm => ?_, ?_⟩,
      List.take_append_drop n w⟩
    · exact fun c hc => hw c (List.mem_of_mem_take hc)
    · have hle := hlimit m hm
      rw [List.length_drop]
      omega
    · exact fun c hc => hw c (List.mem_of_mem_drop hc)

theorem nil_mem_upTo (limit : Option Nat) : [] ∈ upTo test limit :=
  ⟨fun _ _ => Nat.zero_le _, by simp⟩

theorem cons_mem_upTo {limit : Option Nat} {c : Char} {w : List Char} :
    c :: w ∈ upTo test limit ↔
      limit ≠ some 0 ∧ test c = true ∧ w ∈ upTo test (limit.map (· - 1)) := by
  have hlimit : (∀ n, limit = some n → (c :: w).length ≤ n) ↔
      limit ≠ some 0 ∧ ∀ n, limit.map (· - 1) = some n → w.length ≤ n := by
    cases limit with
    | none => simp
    | some m =>
        cases m with
        | zero => simp
        | succ m => simp
  show (∀ n, limit = some n → (c :: w).length ≤ n) ∧ (∀ d ∈ c :: w, test d = true) ↔ _
  rw [hlimit, List.forall_mem_cons]
  constructor
  · rintro ⟨⟨hne, hle⟩, hc, hw⟩
    exact ⟨hne, hc, hle, hw⟩
  · rintro ⟨hne, hc, hle, hw⟩
    exact ⟨⟨hne, hle⟩, hc, hw⟩

/-- Another round takes a character if it may, and otherwise what follows has to accept. -/
theorem runMore_succ (fuel : Nat) (left last : Option Nat) (s : Cursor) (k : Continuation) :
    runMore (runChar test) .most (fuel + 1) left last s k =
      (if mayRepeat left last s then
        runChar test s fun s' =>
          runMore (runChar test) .most fuel (left.map (· - 1)) (some s.position) s' k
      else none).or (k s) := rfl

/-- Further rounds of single characters. The fuel exceeds the number of characters left. -/
theorem runMore_isSome_iff {fuel : Nat} {left last : Option Nat} {s : Cursor} {k : Continuation}
    (hfuel : s.rest.length < fuel) (hlast : ∀ p, last = some p → p < s.position) :
    (runMore (runChar test) .most fuel left last s k).isSome = true ↔
      ∃ taken rest, s.rest = taken ++ rest ∧ taken ∈ upTo test left ∧
        (k (s.after taken)).isSome = true := by
  induction fuel generalizing left last s with
  | zero => omega
  | succ fuel ih =>
      -- The last round took a character, so only the limit can forbid another one.
      have hmay : mayRepeat left last s = true ↔ left ≠ some 0 := by
        have hne : last ≠ some s.position := fun h => by
          have hlt := hlast _ h
          omega
        simp [mayRepeat, hne]
      rw [runMore_succ, Option.isSome_or, Bool.or_eq_true]
      cases hs : s.rest with
      | nil =>
          rw [runChar_nil test hs, ite_self]
          constructor
          · rintro (h | h)
            · cases h
            · exact ⟨[], [], rfl, nil_mem_upTo test left, h⟩
          · rintro ⟨taken, rest, h, -, hk⟩
            obtain ⟨rfl, rfl⟩ := List.append_eq_nil_iff.1 h.symm
            exact .inr hk
      | cons c rest =>
          rw [hs, List.length_cons] at hfuel
          have hrest : (s.after [c]).rest = rest := Cursor.rest_after hs
          have hnext := @ih (left.map (· - 1)) (some s.position) (s.after [c])
            (by rw [hrest]; omega) (by simp [Cursor.after])
          simp only [hrest, Cursor.after_after, List.singleton_append] at hnext
          rw [runChar_cons test hs]
          constructor
          · rintro (h | h)
            · split at h
              · next hround =>
                  split at h
                  · next hc =>
                      obtain ⟨taken, rest', rfl, htaken, hk⟩ := hnext.1 h
                      exact ⟨c :: taken, rest', rfl,
                        (cons_mem_upTo test).2 ⟨hmay.1 hround, hc, htaken⟩, hk⟩
                  · cases h
              · cases h
            · exact ⟨[], c :: rest, rfl, nil_mem_upTo test left, h⟩
          · rintro ⟨taken, rest', h, htaken, hk⟩
            cases taken with
            | nil => exact .inr hk
            | cons d taken =>
                obtain ⟨rfl, rfl⟩ := List.cons.inj h
                obtain ⟨hleft, hc, htaken⟩ := (cons_mem_upTo test).1 htaken
                rw [if_pos (hmay.2 hleft), if_pos hc]
                exact .inl (hnext.2 ⟨taken, rest', rfl, htaken, hk⟩)

theorem takes_runRounds (least : Nat) (most : Option Nat) :
    Takes (runRounds (runChar test) least most .most)
      (exactly test least * upTo test (most.map (· - least))) := by
  have hmore : Takes (fun s k => runMore (runChar test) .most (s.rest.length + 2)
      (most.map (· - least)) none s k) (upTo test (most.map (· - least))) := by
    intro s k _
    exact runMore_isSome_iff test (by omega) fun _ h => by cases h
  exact (takes_runTimes test least).then hmore

end Characters

/-! ## Parts of expressions -/

/-- Several parts one after the other. -/
def runAll : List Node → Runner
  | [], s, k => k s
  | n :: rest, s, k => n.run s fun s' => runAll rest s' k

theorem runAll_append (a b : List Node) (s : Cursor) (k : Continuation) :
    runAll (a ++ b) s k = runAll a s fun s' => runAll b s' k := by
  induction a generalizing s with
  | nil => rfl
  | cons n rest ih =>
      simp only [List.cons_append, runAll]
      exact congrArg _ (funext ih)

theorem takes_runAll_append {a b : List Node} {L M : Language Char} (ha : Takes (runAll a) L)
    (hb : Takes (runAll b) M) : Takes (runAll (a ++ b)) (L * M) := by
  have h : runAll (a ++ b) = fun s k => runAll a s fun s' => runAll b s' k :=
    funext fun s => funext fun k => runAll_append a b s k
  rw [h]
  exact ha.then hb

theorem runAll_singleton (n : Node) : runAll [n] = n.run := rfl

theorem Node.takes_alt {a b : Node} {L M : Language Char} (ha : Takes a.run L)
    (hb : Takes b.run M) : Takes (Node.alt a b).run (L + M) :=
  ha.or hb

theorem Node.takes_group {body : Node} {L : Language Char} (h : Takes body.run L) (index : Nat) :
    Takes (Node.group index body).run L :=
  h.recorded index

theorem Node.takes_rounds {body : Node} {test : Char → Bool} (h : body.run = runChar test)
    (least : Nat) (most : Option Nat) :
    Takes (Node.rounds least most .most body).run
      (exactly test least * upTo test (most.map (· - least))) := by
  have hrun : (Node.rounds least most .most body).run =
      runRounds (runChar test) least most .most := by
    rw [← h]
    rfl
  rw [hrun]
  exact takes_runRounds test least most

/-! ## Anchored expressions -/

def Node.matchesAll (p : Node) (text : String) : Bool :=
  (p.run (.start text.toList) fun s => if s.rest.isEmpty then some s else none).isSome

/-- The parts of an expression between the anchors for the start and the end of a text. -/
def anchored (nodes : List Node) : List Node :=
  .place (.start false) :: nodes ++ [.place (.stop false)]

section Anchored

variable {nodes : List Node} {L : Language Char}

theorem runAll_anchored_isSome_iff (h : Takes (runAll nodes) L) (text : List Char)
    {k : Continuation} (hk : IsBlind k) :
    (runAll (anchored nodes) (.start text) k).isSome = true ↔
      ∃ taken rest, text = taken ++ rest ∧ taken ∈ L ∧ (rest = [] ∨ rest = ['\n']) ∧
        (k ((Cursor.start text).after taken)).isSome = true := by
  have hrun : runAll (anchored nodes) (.start text) k =
      runAll nodes (.start text) fun s => if isAt (.stop false) s then k s else none := by
    simp only [anchored, List.cons_append, runAll, runAll_append]
    rfl
  have hblind : IsBlind fun s => if isAt (.stop false) s then k s else none := by
    intro s groups
    have hsame : isAt (.stop false) { s with groups } = isAt (.stop false) s := rfl
    simp only [hsame]
    split
    · exact hk s groups
    · rfl
  rw [hrun, h _ _ hblind]
  refine exists_congr fun taken => exists_congr fun rest => and_congr_right fun htext =>
    and_congr_right fun _ => ?_
  have hrest : ((Cursor.start text).after taken).rest = rest := Cursor.rest_after htext
  have hstop : isAt (.stop false) ((Cursor.start text).after taken) = true ↔
      rest = [] ∨ rest = ['\n'] := by
    simp [isAt, hrest]
  by_cases hend : rest = [] ∨ rest = ['\n']
  · rw [if_pos (hstop.2 hend)]
    exact (and_iff_right hend).symm
  · rw [if_neg fun hstops => hend (hstop.1 hstops)]
    simp [hend]

/-- Anchored parts match a text from its start if they take it, or take what is before a line feed
at its end. -/
theorem matchesStart_anchored_iff {node : Node} (hnode : node.run = runAll (anchored nodes))
    (h : Takes (runAll nodes) L) (text : String) : node.matchesStart text = true ↔
      text.toList ∈ L ∨ ∃ line ∈ L, text.toList = line ++ ['\n'] := by
  rw [Node.matchesStart, Node.matchesFrom, hnode, runAll_anchored_isSome_iff h _ isBlind_some]
  constructor
  · rintro ⟨taken, rest, htext, htaken, rfl | rfl, -⟩
    · rw [List.append_nil] at htext
      exact .inl (htext ▸ htaken)
    · exact .inr ⟨taken, htaken, htext⟩
  · rintro (htext | ⟨line, hline, htext⟩)
    · exact ⟨text.toList, [], by simp, htext, .inl rfl, rfl⟩
    · exact ⟨line, ['\n'], htext, hline, .inr rfl, rfl⟩

/-- A text without line feeds is matched from its start exactly if the parts take it. -/
theorem matchesStart_anchored {node : Node} (hnode : node.run = runAll (anchored nodes))
    (h : Takes (runAll nodes) L) {text : String} (hline : '\n' ∉ text.toList) :
    node.matchesStart text = true ↔ text.toList ∈ L := by
  rw [matchesStart_anchored_iff hnode h]
  refine or_iff_left ?_
  rintro ⟨line, -, htext⟩
  rw [htext] at hline
  simp at hline

theorem matchesAll_anchored {node : Node} (hnode : node.run = runAll (anchored nodes))
    (h : Takes (runAll nodes) L) (text : String) :
    node.matchesAll text = true ↔ text.toList ∈ L := by
  have hblind : IsBlind fun s => if s.rest.isEmpty then some s else none := by
    intro s groups
    dsimp only
    split <;> rfl
  rw [Node.matchesAll, hnode, runAll_anchored_isSome_iff h _ hblind]
  constructor
  · rintro ⟨taken, rest, htext, htaken, -, hk⟩
    have hrest : ((Cursor.start text.toList).after taken).rest = rest := Cursor.rest_after htext
    rw [hrest] at hk
    cases rest with
    | nil =>
        rw [List.append_nil] at htext
        exact htext ▸ htaken
    | cons c rest => cases hk
  · intro htext
    exact ⟨text.toList, [], by simp, htext, .inl rfl, by simp [Cursor.after, Cursor.start]⟩

theorem searchFrom_of_before {node : Node} (hnode : node.run = runAll (anchored nodes))
    (cs : List Char) {s : Cursor} (hs : s.before ≠ []) : node.searchFrom cs s = false := by
  have hmatches : ∀ s : Cursor, s.before ≠ [] → node.matchesFrom s = false := by
    intro s hs
    have hstart : isAt (.start false) s = false := by simp [isAt, hs]
    show (node.run s some).isSome = false
    rw [hnode]
    show (if isAt (.start false) s = true then _ else none : Option Cursor).isSome = false
    rw [if_neg (by simp [hstart])]
    rfl
  induction cs generalizing s with
  | nil => exact hmatches s hs
  | cons c rest ih =>
      rw [Node.searchFrom, hmatches s hs, ih (List.cons_ne_nil _ _)]
      rfl

/-- An anchored expression is found in a text only where the text starts. -/
theorem search_anchored {node : Node} (hnode : node.run = runAll (anchored nodes))
    (h : Takes (runAll nodes) L) (text : String) : node.search text = true ↔
      text.toList ∈ L ∨ ∃ line ∈ L, text.toList = line ++ ['\n'] := by
  have hstart : node.search text = node.matchesStart text := by
    rw [Node.search, Node.matchesStart]
    cases text.toList with
    | nil => rfl
    | cons c rest =>
        rw [Node.searchFrom, searchFrom_of_before hnode rest (List.cons_ne_nil _ _), Bool.or_false]
  rw [hstart, matchesStart_anchored_iff hnode h]

end Anchored

end Pattern

end Raml
