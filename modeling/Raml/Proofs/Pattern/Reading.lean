import Raml.Parameter.Pattern
import Raml.Pattern.Reader
import Raml.Proofs.Pattern.Matching

/-! # How expressions are read

Tokens that are read as parts which take a language, whatever stands behind
them. Such tokens are put together one after the other, by bars and by
parentheses, and their languages with them. No flags are set on the way and
groups are not referred to, so that what was read before does not matter.
-/

namespace Raml

namespace Pattern

/-! ## Parts in a row -/

theorem sequence_run (nodes : List Node) : (sequence nodes).run = runAll nodes := by
  induction nodes with
  | nil => rfl
  | cons a rest ih =>
      cases rest with
      | nil => rfl
      | cons b rest =>
          funext s k
          show (a.run s fun s' => (sequence (b :: rest)).run s' k) = _
          rw [ih]
          rfl

theorem wrapped_run (node : Node) : (wrapped node).run = node.run := by
  rw [wrapped]
  split <;> rfl

/-! ## Tokens -/

theorem tokens?_cons {c : Char} (hc : c ≠ '\\') (rest : List Char) :
    tokens? (c :: rest) = (tokens? rest).map (.plain c :: ·) := by
  simp [tokens?, hc]

theorem tokens?_append {a b : List Char} {ts us : List Token} (ha : tokens? a = some ts)
    (hb : tokens? b = some us) : tokens? (a ++ b) = some (ts ++ us) := by
  fun_induction tokens? a generalizing ts with
  | case1 =>
      obtain rfl := Option.some.inj ha
      exact hb
  | case2 => cases ha
  | case3 c rest ih =>
      obtain ⟨ts, hrest, rfl⟩ := Option.map_eq_some_iff.1 ha
      have hread := ih hrest
      simp [tokens?, hread]
  | case4 c rest hnil hcons ih =>
      obtain ⟨ts, hrest, rfl⟩ := Option.map_eq_some_iff.1 ha
      have hread := ih hrest
      have hc : c ≠ '\\' := by
        rintro rfl
        cases rest with
        | nil => exact hnil rfl rfl
        | cons d rest => exact hcons d rest rfl rfl
      rw [List.cons_append, tokens?_cons hc, hread]
      rfl

/-- The tokens do not say how a repetition before them chooses its number of rounds. -/
def IsSober (ts : List Token) : Prop :=
  ts.head? ≠ some (.plain '?') ∧ ts.head? ≠ some (.plain '+')

theorem IsSober.readPreference {ts : List Token} (h : IsSober ts) :
    readPreference ts = (.most, ts) := by
  unfold Pattern.readPreference
  split
  · exact absurd rfl h.1
  · exact absurd rfl h.2
  · rfl

/-- No flags are set and no conditions named while an expression is read. -/
structure Progress.IsClear (pr : Progress) : Prop where
  flags : pr.flags = .none
  conditions : pr.conditions = []

/-- The characters that end a sequence or start a set or a group. -/
def delimiters : List Char := ['|', ')', '[', '(']

/-- The characters that an expression does not read as themselves. -/
def operators : List Char := delimiters ++ ['?', '*', '+', '\x7b', '.', '^', '$', '\\']

/-- Whether an expression reads a character as itself. -/
def isOrdinary (c : Char) : Bool :=
  !operators.contains c

/-! ## Steps of reading -/

section Steps

variable {pr : Progress} (fuel : Nat) (leading : Bool) (parts : List Node) (rest : List Token)

theorem readSequence_nil :
    readSequence (fuel + 1) leading parts [] pr = .ok (parts, [], pr) := by
  simp [readSequence]

theorem readSequence_stop {c : Char} (hc : c = '|' ∨ c = ')') :
    readSequence (fuel + 1) leading parts (.plain c :: rest) pr =
      .ok (parts, .plain c :: rest, pr) := by
  simp [readSequence, hc]

theorem readSequence_escaped {c : Char} {node : Node}
    (h : readEscape c rest pr = .ok (node, rest)) :
    readSequence (fuel + 1) leading parts (.escaped c :: rest) pr =
      readSequence fuel leading (parts ++ [node]) rest pr := by
  simp [readSequence, h, bind, Except.bind]

theorem readOpening_capture {ts : List Token} (pr : Progress) (h : ts.head? ≠ some (.plain '?')) :
    readOpening ts pr = .ok (.capture none, ts, pr) := by
  unfold readOpening
  split <;> first | exact absurd rfl h | rfl

variable (hclear : pr.IsClear)
include hclear

theorem Progress.IsClear.verbose : pr.flags.verbose = false := by
  rw [hclear.flags]
  rfl

theorem readSequence_set {ts : List Token} {node : Node}
    (h : readSet ts .none = .ok (node, rest)) :
    readSequence (fuel + 1) leading parts (.plain '[' :: ts) pr =
      readSequence fuel leading (parts ++ [node]) rest pr := by
  rw [← hclear.flags] at h
  simp [readSequence, h, hclear.verbose, bind, Except.bind]

theorem readSequence_plain {c : Char} (hc : c ∉ delimiters)
    (h : readBounds? c rest = .ok none) :
    readSequence (fuel + 1) leading parts (.plain c :: rest) pr =
      readSequence fuel leading (parts ++ [plainNode c .none]) rest pr := by
  simp only [delimiters, List.mem_cons, List.not_mem_nil, or_false, not_or] at hc
  simp [readSequence, h, hc, hclear.verbose, bind, Except.bind]
  rw [hclear.flags]

theorem readSequence_rounds {c : Char} (hc : c ∉ delimiters) {ts : List Token}
    {least : Nat} {most : Option Nat} (h : readBounds? c ts = .ok (some (least, most, rest)))
    (hrest : IsSober rest) {body : Node} (hbody : isRepeatable body = true) :
    readSequence (fuel + 1) leading (parts ++ [body]) (.plain c :: ts) pr =
      readSequence fuel leading (parts ++ [.rounds least most .most body]) rest pr := by
  simp only [delimiters, List.mem_cons, List.not_mem_nil, or_false, not_or] at hc
  simp [readSequence, h, hc, hclear.verbose, hbody, hrest.readPreference, bind, Except.bind]

theorem readSequence_capture {ts : List Token} {pr' : Progress} {node : Node}
    (hts : ts.head? ≠ some (.plain '?'))
    (h : readGroup fuel (.capture none) ts pr = .ok (some node, rest, pr')) :
    readSequence (fuel + 1) leading parts (.plain '(' :: ts) pr =
      readSequence fuel leading (parts ++ [node]) rest pr' := by
  simp [readSequence, hclear.verbose, readOpening_capture pr hts, h, bind, Except.bind]

theorem readSequence_group {ts : List Token} {pr' : Progress} {node : Node}
    (h : readGroup fuel .plain ts pr = .ok (some node, rest, pr')) :
    readSequence (fuel + 1) leading parts (.plain '(' :: .plain '?' :: .plain ':' :: ts) pr =
      readSequence fuel leading (parts ++ [node]) rest pr' := by
  have hopening : readOpening (.plain '?' :: .plain ':' :: ts) pr = .ok (.plain, ts, pr) := by
    simp [readOpening]
  simp [readSequence, hclear.verbose, hopening, h, bind, Except.bind]

end Steps

/-! ## Tokens of a language -/

structure ReadsChar (ts : List Token) (test : Char → Bool) : Prop where
  sober (rest : List Token) : IsSober (ts ++ rest)
  node : ∃ node : Node, node.run = runChar test ∧ isRepeatable node = true ∧
    ∀ (rest : List Token) (pr : Progress) (fuel : Nat) (leading : Bool) (parts : List Node),
      pr.IsClear → readSequence (fuel + 1) leading parts (ts ++ rest) pr =
        readSequence fuel leading (parts ++ [node]) rest pr

/-- Tokens that are read as parts which take a language, with fuel left for those behind them. -/
structure Reads (ts : List Token) (L : Language Char) : Prop where
  sober {rest : List Token} : IsSober rest → IsSober (ts ++ rest)
  nodes (rest : List Token) (pr : Progress) (fuel : Nat) (leading : Bool) (parts : List Node) :
    IsSober rest → pr.IsClear → 3 * (ts ++ rest).length < fuel →
      ∃ (nodes : List Node) (fuel' : Nat) (pr' : Progress), Takes (runAll nodes) L ∧ pr'.IsClear ∧
        3 * rest.length < fuel' ∧ readSequence fuel leading parts (ts ++ rest) pr =
          readSequence fuel' leading (parts ++ nodes) rest pr'

structure ReadsChoice (ts : List Token) (L : Language Char) : Prop where
  sober (rest : List Token) : IsSober (ts ++ .plain ')' :: rest)
  node (rest : List Token) (pr : Progress) (fuel : Nat) :
    pr.IsClear → 3 * (ts ++ .plain ')' :: rest).length + 1 < fuel →
      ∃ (node : Node) (pr' : Progress), Takes node.run L ∧ pr'.IsClear ∧
        readAlternatives fuel false (ts ++ .plain ')' :: rest) pr =
          .ok (node, .plain ')' :: rest, pr')

section Rules

variable {ts us : List Token} {L M : Language Char} {test : Char → Bool}

theorem IsSober.plain {c : Char} (h : c ≠ '?') (h' : c ≠ '+') (rest : List Token) :
    IsSober (.plain c :: rest) := by
  simp [IsSober, h, h']

theorem IsSober.escaped (c : Char) (rest : List Token) : IsSober (.escaped c :: rest) := by
  simp [IsSober]

theorem reads_nil : Reads [] 1 where
  sober h := h
  nodes rest pr fuel leading parts _ hclear hfuel :=
    ⟨[], _, _, takes_nothing, hclear, hfuel, by rw [List.append_nil]; rfl⟩

theorem Reads.append (h : Reads ts L) (h' : Reads us M) : Reads (ts ++ us) (L * M) where
  sober hrest := by
    rw [List.append_assoc]
    exact h.sober (h'.sober hrest)
  nodes rest pr fuel leading parts hrest hclear hfuel := by
    rw [List.append_assoc] at hfuel ⊢
    obtain ⟨a, fuel', pr', ha, hclear', hfuel', heq⟩ :=
      h.nodes _ pr fuel leading parts (h'.sober hrest) hclear hfuel
    obtain ⟨b, fuel'', pr'', hb, hclear'', hfuel'', heq'⟩ :=
      h'.nodes rest pr' fuel' leading (parts ++ a) hrest hclear' hfuel'
    refine ⟨a ++ b, fuel'', pr'', takes_runAll_append ha hb, hclear'', hfuel'', ?_⟩
    rw [heq, heq', List.append_assoc]

theorem ReadsChar.ne_nil (h : ReadsChar ts test) : 0 < ts.length := by
  cases ts with
  | nil => exact absurd rfl (h.sober [.plain '?']).1
  | cons t ts => exact Nat.succ_pos _

theorem ReadsChar.reads (h : ReadsChar ts test) : Reads ts (single test) where
  sober _ := h.sober _
  nodes rest pr fuel leading parts _ hclear hfuel := by
    obtain ⟨node, hrun, -, hread⟩ := h.node
    have hpos := h.ne_nil
    rw [List.length_append] at hfuel
    obtain ⟨fuel, rfl⟩ : ∃ n, fuel = n + 1 := ⟨fuel - 1, by omega⟩
    have htakes : Takes (runAll [node]) (single test) := by
      rw [runAll_singleton, hrun]
      exact takes_runChar test
    exact ⟨[node], fuel, pr, htakes, hclear, by omega, hread rest pr fuel leading parts hclear⟩

theorem ReadsChar.rounds (h : ReadsChar ts test) (c : Char) (us : List Token) (hc : c ∉ delimiters)
    {least : Nat} {most : Option Nat}
    (hbounds : ∀ rest, readBounds? c (us ++ rest) = .ok (some (least, most, rest))) :
    Reads (ts ++ .plain c :: us) (exactly test least * upTo test (most.map (· - least))) where
  sober _ := by
    rw [List.append_assoc]
    exact h.sober _
  nodes rest pr fuel leading parts hrest hclear hfuel := by
    obtain ⟨node, hrun, hrepeatable, hread⟩ := h.node
    simp only [List.length_append, List.length_cons] at hfuel
    obtain ⟨fuel, rfl⟩ : ∃ n, fuel = n + 1 + 1 := ⟨fuel - 2, by omega⟩
    refine ⟨[.rounds least most .most node], fuel, pr, ?_, hclear, by omega, ?_⟩
    · rw [runAll_singleton]
      exact Node.takes_rounds hrun least most
    · rw [List.append_assoc, hread _ pr _ leading parts hclear, List.cons_append]
      exact readSequence_rounds fuel leading parts rest hclear hc (hbounds rest) hrest hrepeatable

/-! ## Alternatives and groups -/

theorem Reads.first (h : Reads ts L) {c : Char} (hc : c = '|' ∨ c = ')') (rest : List Token)
    {pr : Progress} (hclear : pr.IsClear) {fuel : Nat}
    (hfuel : 3 * (ts ++ .plain c :: rest).length < fuel) :
    ∃ (node : Node) (pr' : Progress), Takes node.run L ∧ pr'.IsClear ∧
      readAlternatives (fuel + 1) false (ts ++ .plain c :: rest) pr =
        readFurther fuel node (.plain c :: rest) pr' := by
  have hsober : IsSober (.plain c :: rest) :=
    .plain (by rcases hc with rfl | rfl <;> decide) (by rcases hc with rfl | rfl <;> decide) rest
  obtain ⟨nodes, fuel', pr', htakes, hclear', hfuel', heq⟩ :=
    h.nodes _ pr fuel false [] hsober hclear hfuel
  obtain ⟨fuel', rfl⟩ : ∃ n, fuel' = n + 1 := ⟨fuel' - 1, by omega⟩
  refine ⟨sequence nodes, pr', by rw [sequence_run]; exact htakes, hclear', ?_⟩
  rw [readAlternatives, heq, readSequence_stop _ _ _ _ hc]
  rfl

theorem Reads.choice (h : Reads ts L) : ReadsChoice ts L where
  sober rest := h.sober (.plain (by decide) (by decide) rest)
  node rest pr fuel hclear hfuel := by
    obtain ⟨fuel, rfl⟩ : ∃ n, fuel = n + 1 + 1 := ⟨fuel - 2, by omega⟩
    obtain ⟨node, pr', htakes, hclear', heq⟩ := h.first (.inr rfl) rest hclear
      (by omega : _ < fuel + 1)
    refine ⟨node, pr', htakes, hclear', ?_⟩
    rw [heq]
    simp [readFurther]

theorem readFurther_bar (fuel : Nat) (first : Node) (rest : List Token) (pr : Progress) :
    readFurther (fuel + 1) first (.plain '|' :: rest) pr =
      (readAlternatives (fuel + 1) false rest pr).map fun p => (.alt first p.1, p.2) := by
  simp only [readFurther, readAlternatives, bind, Except.bind, Except.map]
  cases readSequence fuel false [] rest pr with
  | error _ => rfl
  | ok p => cases readFurther fuel (sequence p.1) p.2.1 p.2.2 <;> rfl

theorem Reads.choiceOr (h : Reads ts L) (h' : ReadsChoice us M) :
    ReadsChoice (ts ++ .plain '|' :: us) (L + M) where
  sober rest := by
    rw [List.append_assoc]
    exact h.sober (.plain (by decide) (by decide) _)
  node rest pr fuel hclear hfuel := by
    rw [List.append_assoc, List.cons_append] at hfuel ⊢
    obtain ⟨fuel, rfl⟩ : ∃ n, fuel = n + 1 + 1 := ⟨fuel - 2, by omega⟩
    obtain ⟨first, pr', htakes, hclear', heq⟩ := h.first (.inl rfl) (us ++ .plain ')' :: rest)
      hclear (by omega : _ < fuel + 1)
    simp only [List.length_append, List.length_cons] at hfuel
    obtain ⟨others, pr'', htakes', hclear'', heq'⟩ := h'.node rest pr' (fuel + 1) hclear'
      (by simp only [List.length_append, List.length_cons]; omega)
    refine ⟨.alt first others, pr'', Node.takes_alt htakes htakes', hclear'', ?_⟩
    rw [heq, readFurther_bar, heq']
    rfl

theorem ReadsChoice.capture (h : ReadsChoice ts L) :
    Reads (.plain '(' :: ts ++ [.plain ')']) L where
  sober _ := .plain (by decide) (by decide) _
  nodes rest pr fuel leading parts _ hclear hfuel := by
    have htokens : .plain '(' :: ts ++ [.plain ')'] ++ rest =
        .plain '(' :: (ts ++ .plain ')' :: rest) := by simp
    rw [htokens] at hfuel ⊢
    rw [List.length_cons] at hfuel
    obtain ⟨fuel, rfl⟩ : ∃ n, fuel = n + 1 + 1 := ⟨fuel - 2, by omega⟩
    obtain ⟨node, pr', htakes, hclear', heq⟩ := h.node rest
      { pr with groupCount := pr.groupCount + 1 } fuel ⟨hclear.flags, hclear.conditions⟩ (by omega)
    refine ⟨[.group pr.groupCount node], fuel + 1,
      { pr' with closed := (pr.groupCount, node.width pr'.closed) :: pr'.closed }, ?_,
      ⟨hclear'.flags, hclear'.conditions⟩, ?_, ?_⟩
    · rw [runAll_singleton]
      exact Node.takes_group htakes pr.groupCount
    · simp only [List.length_append, List.length_cons] at hfuel
      omega
    · refine readSequence_capture (fuel + 1) leading parts rest hclear (h.sober rest).1 ?_
      simp [readGroup, heq, expectClose, bind, Except.bind]

theorem ReadsChoice.group (h : ReadsChoice ts L) :
    Reads (.plain '(' :: .plain '?' :: .plain ':' :: ts ++ [.plain ')']) L where
  sober _ := .plain (by decide) (by decide) _
  nodes rest pr fuel leading parts _ hclear hfuel := by
    have htokens : .plain '(' :: .plain '?' :: .plain ':' :: ts ++ [.plain ')'] ++ rest =
        .plain '(' :: .plain '?' :: .plain ':' :: (ts ++ .plain ')' :: rest) := by simp
    rw [htokens] at hfuel ⊢
    simp only [List.length_cons] at hfuel
    obtain ⟨fuel, rfl⟩ : ∃ n, fuel = n + 1 + 1 := ⟨fuel - 2, by omega⟩
    obtain ⟨node, pr', htakes, hclear', heq⟩ := h.node rest pr fuel hclear (by omega)
    refine ⟨[wrapped node], fuel + 1, pr', ?_, hclear', ?_, ?_⟩
    · rw [runAll_singleton, wrapped_run]
      exact htakes
    · simp only [List.length_append, List.length_cons] at hfuel
      omega
    · refine readSequence_group (fuel + 1) leading parts rest hclear ?_
      simp [readGroup, heq, expectClose, bind, Except.bind]

end Rules

/-! ## Characters -/

section Characters

variable {c : Char}

theorem readBounds?_of_ordinary (h : isOrdinary c = true) (rest : List Token) :
    readBounds? c rest = .ok none := by
  unfold readBounds?
  split <;> first | exact absurd h (by decide) | rfl

theorem plainNode_of_ordinary (h : isOrdinary c = true) (f : Flags) :
    plainNode c f = .code c.toNat f.rule := by
  unfold plainNode
  split <;> first | exact absurd h (by decide) | rfl

theorem readsChar_plain (h : isOrdinary c = true) :
    ReadsChar [.plain c] (hasCode c.toNat .exact) where
  sober rest := by
    have hmark : c ≠ '?' := fun heq => absurd (heq ▸ h) (by decide)
    have hplus : c ≠ '+' := fun heq => absurd (heq ▸ h) (by decide)
    exact .plain hmark hplus rest
  node := by
    refine ⟨.code c.toNat .exact, rfl, rfl, fun rest pr fuel leading parts hclear => ?_⟩
    have hc : c ∉ delimiters := fun hmem => by
      simp [isOrdinary, operators, hmem] at h
    rw [List.singleton_append, readSequence_plain fuel leading parts rest hclear hc
      (readBounds?_of_ordinary h rest), plainNode_of_ordinary h]
    rfl

theorem readsChar_dot : ReadsChar [.plain '.'] (fun c => false || c != '\n') where
  sober rest := .plain (by decide) (by decide) rest
  node := by
    refine ⟨.any false, rfl, rfl, fun rest pr fuel leading parts hclear => ?_⟩
    exact readSequence_plain fuel leading parts rest hclear (by decide) rfl

theorem readEscape_special (h : c ∈ specials) (rest : List Token) {pr : Progress}
    (hclear : pr.IsClear) : readEscape c rest pr = .ok (.code c.toNat .exact, rest) := by
  have hrule : pr.flags.rule = .exact := by rw [hclear.flags]; rfl
  have hspecials : (specials.all fun c => (class? false c).isNone && (place? false c).isNone &&
      controlCode? c == (if c = '\\' then some c.toNat else none) && c != '0' && !c.isDigit &&
      (hexCount? c).isNone && !c.isAlphanum) = true := by decide
  have hc := List.all_eq_true.1 hspecials c h
  simp only [Bool.and_eq_true, Option.isNone_iff_eq_none, beq_iff_eq, bne_iff_ne, ne_eq,
    Bool.not_eq_true'] at hc
  obtain ⟨⟨⟨⟨⟨⟨hclass, hplace⟩, hcode⟩, hzero⟩, hdigit⟩, hhex⟩, halpha⟩ := hc
  have hascii : pr.flags.ascii = false := by rw [hclear.flags]; rfl
  by_cases hslash : c = '\\'
  · rw [if_pos hslash] at hcode
    simp only [readEscape, hascii, hclass, hplace, hcode, hrule]
  · simp [readEscape, readCode, hascii, hclass, hplace, hcode, hslash, hrule, hzero, hdigit, hhex,
      halpha, bind, Except.bind]

theorem readsChar_special (h : c ∈ specials) :
    ReadsChar [.escaped c] (hasCode c.toNat .exact) where
  sober rest := .escaped c rest
  node := by
    refine ⟨.code c.toNat .exact, rfl, rfl, fun rest pr fuel leading parts hclear => ?_⟩
    exact readSequence_escaped fuel leading parts rest (readEscape_special h rest hclear)

theorem readsChar_digit :
    ReadsChar [.escaped 'd']
      (fun c => holdsAny [.inClass (.digit false) false] .exact c != false) where
  sober rest := .escaped 'd' rest
  node := by
    refine ⟨.set false [.inClass (.digit false) false] .exact, rfl, rfl,
      fun rest pr fuel leading parts hclear => ?_⟩
    refine readSequence_escaped fuel leading parts rest ?_
    simp [readEscape, class?, hclear.flags, Flags.none]

theorem readsChar_set {ts : List Token} {negated : Bool} {items : List SetItem}
    (h : ∀ rest, readSet (ts ++ rest) .none = .ok (.set negated items .exact, rest)) :
    ReadsChar (.plain '[' :: ts) (fun c => holdsAny items .exact c != negated) where
  sober rest := .plain (by decide) (by decide) (ts ++ rest)
  node := by
    refine ⟨.set negated items .exact, rfl, rfl, fun rest pr fuel leading parts hclear => ?_⟩
    exact readSequence_set fuel leading parts rest hclear (h rest)

def literal (c : Char) : Token :=
  if specials.contains c then .escaped c else .plain c

theorem tokens?_escape (text : String) :
    tokens? (escape text).toList = some (text.toList.map literal) := by
  rw [escape, String.toList_ofList]
  induction text.toList with
  | nil => rfl
  | cons c rest ih =>
      rw [List.flatMap_cons, List.map_cons, literal]
      split
      · exact tokens?_append (a := ['\\', c]) rfl ih
      · next hc =>
          have hc' : c ≠ '\\' := fun heq => hc (heq ▸ by decide)
          rw [List.singleton_append, tokens?_cons hc', ih]
          rfl

theorem isOrdinary_of_not_special (h : c ∉ specials) : isOrdinary c = true := by
  have hoperators : operators.all specials.contains = true := by decide
  have hc : c ∉ operators := fun hc => h (List.contains_iff_mem.1 (List.all_eq_true.1 hoperators c hc))
  simpa [isOrdinary] using hc

theorem readsChar_literal (c : Char) : ReadsChar [literal c] (hasCode c.toNat .exact) := by
  by_cases hc : specials.contains c = true
  · rw [literal, if_pos hc]
    exact readsChar_special (List.contains_iff_mem.1 hc)
  · rw [literal, if_neg hc]
    exact readsChar_plain (isOrdinary_of_not_special fun hmem => hc (List.contains_iff_mem.2 hmem))

theorem hasCode_exact_iff {c d : Char} : hasCode c.toNat .exact d = true ↔ d = c := by
  simp [hasCode, CaseRule.variants, Char.toNat_inj]

theorem reads_text {f : Char → Token} {cs : List Char}
    (h : ∀ c ∈ cs, ReadsChar [f c] (hasCode c.toNat .exact)) : Reads (cs.map f) {cs} := by
  induction cs with
  | nil => exact reads_nil
  | cons c rest ih =>
      have hlanguage : ({c :: rest} : Language Char) =
          single (hasCode c.toNat .exact) * {rest} := by
        ext w
        rw [Language.mem_mul]
        constructor
        · rintro rfl
          exact ⟨[c], ⟨c, hasCode_exact_iff.2 rfl, rfl⟩, rest, rfl, rfl⟩
        · rintro ⟨_, ⟨d, hd, rfl⟩, _, rfl, rfl⟩
          obtain rfl := hasCode_exact_iff.1 hd
          rfl
      rw [List.forall_mem_cons] at h
      rw [hlanguage]
      exact h.1.reads.append (ih h.2)

end Characters

/-- A brace that starts no repetition stands for itself. -/
theorem Reads.brace {us : List Token} {L : Language Char} (h : Reads us L)
    (hbraces : ∀ rest, readBraces (us ++ rest) = .ok none) :
    Reads (.plain '\x7b' :: us) (single (hasCode '\x7b'.toNat .exact) * L) where
  sober _ := .plain (by decide) (by decide) _
  nodes rest pr fuel leading parts hrest hclear hfuel := by
    rw [List.cons_append, List.length_cons] at hfuel
    obtain ⟨fuel, rfl⟩ : ∃ n, fuel = n + 1 := ⟨fuel - 1, by omega⟩
    have hplain := readSequence_plain fuel leading parts (us ++ rest) hclear
      (by decide : '\x7b' ∉ delimiters) (hbraces rest)
    obtain ⟨nodes, fuel', pr', htakes, hclear', hfuel', heq⟩ :=
      h.nodes rest pr fuel leading (parts ++ [plainNode '\x7b' .none]) hrest hclear (by omega)
    refine ⟨plainNode '\x7b' .none :: nodes, fuel', pr', ?_, hclear', hfuel', ?_⟩
    · exact (takes_runChar _).then htakes
    · rw [List.cons_append, hplain, heq, List.append_assoc]
      rfl

/-! ## Anchored expressions -/

theorem tokens?_anchored {body : String} {ts : List Token} (h : tokens? body.toList = some ts) :
    tokens? ("^" ++ body ++ "$").toList = some (.plain '^' :: (ts ++ [.plain '$'])) := by
  rw [String.toList_append, String.toList_append]
  exact tokens?_append (tokens?_append (a := ['^']) rfl h) rfl

theorem read_anchored {body : String} {ts : List Token} {L : Language Char}
    (htokens : tokens? body.toList = some ts) (h : Reads ts L) :
    ∃ node nodes, read ("^" ++ body ++ "$") = .ok node ∧ node.run = runAll (anchored nodes) ∧
      Takes (runAll nodes) L := by
  have hall := tokens?_anchored htokens
  generalize hlength : 3 * (Token.plain '^' :: (ts ++ [.plain '$'])).length = length
  have hclear : Progress.IsClear ⟨.none, 1, [], [], none, []⟩ := ⟨rfl, rfl⟩
  have hsober : IsSober [.plain '$'] := .plain (by decide) (by decide) []
  obtain ⟨nodes, fuel, pr, htakes, hclear', hfuel, heq⟩ :=
    h.nodes _ _ (length + 1) true [.place (.start false)] hsober hclear
      (by simp only [List.length_cons] at hlength; omega)
  obtain ⟨fuel, rfl⟩ : ∃ n, fuel = n + 1 + 1 :=
    ⟨fuel - 2, by simp only [List.length_cons] at hfuel; omega⟩
  have hbody : readSequence (length + 2) true [] (.plain '^' :: (ts ++ [.plain '$']))
      ⟨.none, 1, [], [], none, []⟩ = .ok (anchored nodes, [], pr) := by
    rw [readSequence_plain _ _ _ _ hclear (by decide) rfl]
    show readSequence (length + 1) true [.place (.start false)] _ _ = _
    rw [heq, readSequence_plain _ _ _ _ hclear' (by decide) rfl, readSequence_nil]
    rfl
  refine ⟨sequence (anchored nodes), nodes, ?_, sequence_run _, htakes⟩
  have hwhole : readAlternatives (length + 3) true (.plain '^' :: (ts ++ [.plain '$']))
      ⟨.none, 1, [], [], none, []⟩ = .ok (sequence (anchored nodes), [], pr) := by
    rw [readAlternatives, hbody]
    simp [readFurther, bind, Except.bind]
  rw [read, hall]
  simp only [hlength, hwhole, bind, Except.bind]
  simp [hclear'.flags, hclear'.conditions, Flags.none]

/-! ## Refused tokens -/

/-- Tokens that are refused, whatever stands around them. -/
def Refuses (ts : List Token) : Prop :=
  ∀ (rest : List Token) (pr : Progress) (fuel : Nat) (leading : Bool) (parts : List Node),
    pr.IsClear → ∃ e, readSequence fuel leading parts (ts ++ rest) pr = .error e

section Refused

variable {ts us : List Token}

theorem ReadsChar.refuses {test : Char → Bool} (h : ReadsChar ts test) {e : Problem}
    (hbraces : ∀ rest, readBraces (us ++ rest) = .error e) :
    Refuses (ts ++ .plain '\x7b' :: us) := by
  intro rest pr fuel leading parts hclear
  obtain ⟨node, -, -, hread⟩ := h.node
  cases fuel with
  | zero => exact ⟨.malformed, rfl⟩
  | succ fuel =>
      rw [List.append_assoc, hread _ pr fuel leading parts hclear, List.cons_append]
      cases fuel with
      | zero => exact ⟨.malformed, rfl⟩
      | succ fuel =>
          refine ⟨e, ?_⟩
          simp [readSequence, hclear.verbose, readBounds?, hbraces, bind, Except.bind]

theorem Refuses.capture (h : Refuses ts) (hts : ∀ rest, IsSober (ts ++ rest)) :
    Refuses (.plain '(' :: ts ++ [.plain ')']) := by
  intro rest pr fuel leading parts hclear
  have htokens : .plain '(' :: ts ++ [.plain ')'] ++ rest =
      .plain '(' :: (ts ++ .plain ')' :: rest) := by simp
  have halternatives : ∀ fuel, ∃ e, readAlternatives fuel false (ts ++ .plain ')' :: rest)
      { pr with groupCount := pr.groupCount + 1 } = .error e := by
    intro fuel
    cases fuel with
    | zero => exact ⟨.malformed, rfl⟩
    | succ fuel =>
        obtain ⟨e, he⟩ := h (.plain ')' :: rest) { pr with groupCount := pr.groupCount + 1 } fuel
          false [] ⟨hclear.flags, hclear.conditions⟩
        exact ⟨e, by rw [readAlternatives, he]; rfl⟩
  have hgroup : ∀ fuel, ∃ e,
      readGroup fuel (.capture none) (ts ++ .plain ')' :: rest) pr = .error e := by
    intro fuel
    cases fuel with
    | zero => exact ⟨.malformed, rfl⟩
    | succ fuel =>
        obtain ⟨e, he⟩ := halternatives fuel
        exact ⟨e, by simp [readGroup, he, bind, Except.bind]⟩
  rw [htokens]
  cases fuel with
  | zero => exact ⟨.malformed, rfl⟩
  | succ fuel =>
      obtain ⟨e, he⟩ := hgroup fuel
      refine ⟨e, ?_⟩
      simp [readSequence, hclear.verbose, readOpening_capture pr (hts _).1, he, bind, Except.bind]

theorem Refuses.read (h : Refuses ts) {body : String} (htokens : tokens? body.toList = some ts)
    (node : Node) : read ("^" ++ body ++ "$") ≠ .ok node := by
  have hall := tokens?_anchored htokens
  generalize hlength : 3 * (Token.plain '^' :: (ts ++ [.plain '$'])).length = length
  have hclear : Progress.IsClear ⟨.none, 1, [], [], none, []⟩ := ⟨rfl, rfl⟩
  obtain ⟨e, he⟩ := h [.plain '$'] _ (length + 1) true ([] ++ [plainNode '^' .none]) hclear
  rw [Pattern.read, hall]
  simp only [hlength, readAlternatives]
  rw [readSequence_plain _ _ _ _ hclear (by decide) rfl, he]
  rintro ⟨⟩

end Refused

/-! ## Written expressions -/

/-- The text of an expression that is read as parts which take a language. -/
def Denotes (text : String) (L : Language Char) : Prop :=
  ∃ ts, tokens? text.toList = some ts ∧ Reads ts L

def DenotesChoice (text : String) (L : Language Char) : Prop :=
  ∃ ts, tokens? text.toList = some ts ∧ ReadsChoice ts L

section Written

variable {a b text : String} {L M : Language Char}

theorem denotes_empty : Denotes "" 1 := ⟨[], rfl, reads_nil⟩

theorem Denotes.append (h : Denotes a L) (h' : Denotes b M) : Denotes (a ++ b) (L * M) := by
  obtain ⟨ts, htokens, hreads⟩ := h
  obtain ⟨us, htokens', hreads'⟩ := h'
  refine ⟨ts ++ us, ?_, hreads.append hreads'⟩
  rw [String.toList_append]
  exact tokens?_append htokens htokens'

theorem Denotes.congr (h : Denotes a L) (hlanguage : ∀ w, w ∈ L ↔ w ∈ M) : Denotes a M := by
  have heq : L = M := Language.ext hlanguage
  exact heq ▸ h

theorem Denotes.choice (h : Denotes a L) : DenotesChoice a L := by
  obtain ⟨ts, htokens, hreads⟩ := h
  exact ⟨ts, htokens, hreads.choice⟩

theorem Denotes.choiceOr (h : Denotes a L) (h' : DenotesChoice b M) :
    DenotesChoice (a ++ "|" ++ b) (L + M) := by
  obtain ⟨ts, htokens, hreads⟩ := h
  obtain ⟨us, htokens', hreads'⟩ := h'
  refine ⟨ts ++ .plain '|' :: us, ?_, hreads.choiceOr hreads'⟩
  rw [String.toList_append, String.toList_append, List.append_assoc]
  exact tokens?_append htokens (tokens?_append (a := ['|']) rfl htokens')

theorem DenotesChoice.capture (h : DenotesChoice a L) : Denotes ("(" ++ a ++ ")") L := by
  obtain ⟨ts, htokens, hreads⟩ := h
  refine ⟨_, ?_, hreads.capture⟩
  rw [String.toList_append, String.toList_append]
  exact tokens?_append (tokens?_append (a := ['(']) rfl htokens) rfl

theorem DenotesChoice.group (h : DenotesChoice a L) : Denotes ("(?:" ++ a ++ ")") L := by
  obtain ⟨ts, htokens, hreads⟩ := h
  refine ⟨_, ?_, hreads.group⟩
  rw [String.toList_append, String.toList_append]
  exact tokens?_append (tokens?_append (a := ['(', '?', ':']) rfl htokens) rfl

theorem denotes_escape (text : String) : Denotes (escape text) {text.toList} :=
  ⟨_, tokens?_escape text, reads_text fun c _ => readsChar_literal c⟩

theorem tokens?_plain {cs : List Char} (h : ∀ c ∈ cs, isOrdinary c = true) :
    tokens? cs = some (cs.map .plain) := by
  induction cs with
  | nil => rfl
  | cons c rest ih =>
      rw [List.forall_mem_cons] at h
      have hc : c ≠ '\\' := fun heq => absurd (heq ▸ h.1) (by decide)
      rw [tokens?_cons hc, ih h.2]
      rfl

theorem denotes_plain (h : text.toList.all isOrdinary = true) : Denotes text {text.toList} := by
  rw [List.all_eq_true] at h
  exact ⟨_, tokens?_plain h, reads_text fun c hc => readsChar_plain (h c hc)⟩

/-- An expression in anchors that denotes a language matches in full what is in it, and from the
start as well unless there are line feeds. -/
theorem Denotes.read (h : Denotes text L) : ∃ node, read ("^" ++ text ++ "$") = .ok node ∧
    (∀ s, node.matchesAll s = true ↔ s.toList ∈ L) ∧
      ∀ s : String, '\n' ∉ s.toList → (node.matchesStart s = true ↔ s.toList ∈ L) := by
  obtain ⟨ts, htokens, hreads⟩ := h
  obtain ⟨node, nodes, hread, hrun, htakes⟩ := read_anchored htokens hreads
  exact ⟨node, hread, matchesAll_anchored hrun htakes, fun s => matchesStart_anchored hrun htakes⟩

/-- An expression in anchors is found in a text if the text, or what is before a line feed at its
end, is in the language. -/
theorem Denotes.search (h : Denotes text L) : ∃ node, Pattern.read ("^" ++ text ++ "$") = .ok node ∧
    ∀ s : String, node.search s = true ↔ s.toList ∈ L ∨ ∃ line ∈ L, s.toList = line ++ ['\n'] := by
  obtain ⟨ts, htokens, hreads⟩ := h
  obtain ⟨node, nodes, hread, hrun, htakes⟩ := read_anchored htokens hreads
  exact ⟨node, hread, search_anchored hrun htakes⟩

end Written

end Pattern

end Raml
