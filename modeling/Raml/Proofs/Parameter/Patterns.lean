import Raml.Proofs.Pattern.Reading

/-! # The patterns of parameters

A pattern that follows from what a parameter declares, and is not declared
itself, is an expression in anchors that denotes a language. Bounds on the
length that no repetition can have leave braces that stand for themselves; bounds
in the wrong order, or too large, make the pattern no expression at all.
-/

namespace Raml

namespace Pattern

/-! ## Alternatives -/

def anyOf {α : Type} (L : α → Language Char) (xs : List α) : Language Char :=
  {w | ∃ x ∈ xs, w ∈ L x}

theorem denotesChoice_intercalate {α : Type} {f : α → String} {L : α → Language Char}
    {xs : List α} (hne : xs ≠ []) (h : ∀ x ∈ xs, Denotes (f x) (L x)) :
    DenotesChoice ("|".intercalate (xs.map f)) (anyOf L xs) := by
  induction xs with
  | nil => exact absurd rfl hne
  | cons x rest ih =>
      rw [List.forall_mem_cons] at h
      cases rest with
      | nil =>
          have hlanguage : anyOf L [x] = L x := Language.ext fun w => by
            show (∃ y ∈ [x], w ∈ L y) ↔ w ∈ L x
            rw [List.exists_mem_cons_iff]
            simp
          rw [hlanguage]
          simpa using h.1.choice
      | cons y rest =>
          have hlanguage : anyOf L (x :: y :: rest) = L x + anyOf L (y :: rest) :=
            Language.ext fun w => List.exists_mem_cons_iff (fun z => w ∈ L z) x (y :: rest)
          rw [hlanguage, List.map_cons, List.map_cons, String.intercalate_cons_cons]
          exact h.1.choiceOr (ih (by simp) h.2)

/-! ## Repetitions -/

theorem takeDigits_stop {ts : List Token} (h : plainDigit? ts = none) (n : Nat) :
    takeDigits Char.isDigit n ts = ([], ts) := by
  cases n with
  | zero => simp [takeDigits]
  | succ n =>
      cases ts with
      | nil => simp [takeDigits]
      | cons t rest =>
          cases t with
          | escaped c => simp [takeDigits]
          | plain c =>
              have hc : c.isDigit = false := by simpa [plainDigit?] using h
              simp [takeDigits, hc]

theorem takeDigits_sign (n : Nat) (rest : List Token) :
    takeDigits Char.isDigit n (.plain '-' :: rest) = ([], .plain '-' :: rest) :=
  takeDigits_stop rfl n

theorem takeDigits_append {digits : List Char} (hdigits : ∀ c ∈ digits, c.isDigit = true)
    {rest : List Token} (hrest : plainDigit? rest = none) {n : Nat} (hn : digits.length ≤ n) :
    takeDigits Char.isDigit n (digits.map .plain ++ rest) = (digits, rest) := by
  induction digits generalizing n with
  | nil => exact takeDigits_stop hrest n
  | cons c digits ih =>
      obtain ⟨n, rfl⟩ : ∃ m, n = m + 1 := ⟨n - 1, by simp only [List.length_cons] at hn; omega⟩
      rw [List.forall_mem_cons] at hdigits
      have htake := ih hdigits.2 (Nat.le_of_succ_le_succ hn)
      simp [takeDigits, hdigits.1, htake]

theorem head?_digits {digits : List Char} (hdigits : ∀ c ∈ digits, c.isDigit = true) {c : Char}
    (hc : c ≠ '\x7d') (rest : List Token) :
    (digits.map Token.plain ++ .plain c :: rest).head? ≠ some (.plain '\x7d') := by
  cases digits with
  | nil => simp [hc]
  | cons d digits =>
      have hd : d ≠ '\x7d' := by
        rintro rfl
        exact absurd (hdigits _ List.mem_cons_self) (by decide)
      simp [hd]

/-- The bounds that digits before and after a comma say, unless they are refused. -/
def boundsOf (low high : List Char) : Except Problem (Nat × Option Nat) :=
  let least := Text.numberOf 10 low
  let most := if high.isEmpty then none else some (Text.numberOf 10 high)
  if roundLimit ≤ least || (most.any fun m => roundLimit ≤ m) then .error .tooLarge
  else if most.any fun m => m < least then refuse
  else .ok (least, most)

def braces (low high : List Char) : List Char :=
  low ++ ',' :: (high ++ ['\x7d'])

section Braces

variable {low high : List Char}

theorem braces_tokens (rest : List Token) : (braces low high).map .plain ++ rest =
    low.map .plain ++ .plain ',' :: (high.map .plain ++ .plain '\x7d' :: rest) := by
  simp [braces]

theorem readBraces_digits (hlow : ∀ c ∈ low, c.isDigit = true)
    (hhigh : ∀ c ∈ high, c.isDigit = true) (rest : List Token) :
    readBraces ((braces low high).map .plain ++ rest) =
      (boundsOf low high).map fun bounds => some (bounds.1, bounds.2, rest) := by
  rw [braces_tokens]
  generalize hbehind : high.map Token.plain ++ .plain '\x7d' :: rest = behind
  have hfirst : (low.map Token.plain ++ .plain ',' :: behind).head? ≠ some (.plain '\x7d') :=
    head?_digits hlow (by decide) behind
  have htakeLow : takeDigits Char.isDigit (low.map Token.plain ++ .plain ',' :: behind).length
      (low.map .plain ++ .plain ',' :: behind) = (low, .plain ',' :: behind) :=
    takeDigits_append hlow rfl (by simp)
  have htakeHigh : takeDigits Char.isDigit (Token.plain ',' :: behind).length behind =
      (high, .plain '\x7d' :: rest) := by
    rw [← hbehind]
    exact takeDigits_append hhigh rfl (by simp; omega)
  simp only [readBraces, htakeLow, List.head?_cons, if_true, List.drop_succ_cons, List.drop_zero,
    htakeHigh, if_neg hfirst, boundsOf]
  generalize (if high.isEmpty = true then none else some (Text.numberOf 10 high)) = most
  split
  · rfl
  · split <;> rfl

theorem readBraces_sign_low (rest : List Token) :
    readBraces ((braces ('-' :: low) high).map .plain ++ rest) = .ok none := by
  rw [braces_tokens, List.map_cons, List.cons_append]
  simp [readBraces, takeDigits_sign]

theorem readBraces_sign_high (hlow : ∀ c ∈ low, c.isDigit = true) (rest : List Token) :
    readBraces ((braces low ('-' :: high)).map .plain ++ rest) = .ok none := by
  rw [braces_tokens, List.map_cons, List.cons_append]
  generalize high.map Token.plain ++ .plain '\x7d' :: rest = behind
  have hfirst : (low.map Token.plain ++ .plain ',' :: .plain '-' :: behind).head? ≠
      some (.plain '\x7d') := head?_digits hlow (by decide) _
  have htakeLow :
      takeDigits Char.isDigit (low.map Token.plain ++ .plain ',' :: .plain '-' :: behind).length
        (low.map .plain ++ .plain ',' :: .plain '-' :: behind) =
          (low, .plain ',' :: .plain '-' :: behind) :=
    takeDigits_append hlow rfl (by simp)
  simp only [readBraces, htakeLow, List.head?_cons, if_true, List.drop_succ_cons, List.drop_zero,
    takeDigits_sign, if_neg hfirst]
  rfl

end Braces

/-! ## Sets -/

def notSlash : List Token := [.plain '[', .plain '^', .plain '/', .plain ']']

theorem holdsAny_exact (items : List SetItem) (c : Char) :
    holdsAny items .exact c = items.any (·.holds c) := by
  simp [holdsAny, CaseRule.variants]

theorem holds_code (c d : Char) : (SetItem.code d.toNat).holds c = (c == d) := by
  rw [SetItem.holds, Bool.eq_iff_iff, beq_iff_eq, beq_iff_eq, Char.toNat_inj]

theorem readsChar_notSlash : ReadsChar notSlash (· != '/') := by
  have htest : (fun c => holdsAny [.code '/'.toNat] .exact c != true) = (· != '/') := by
    funext c
    simp only [holdsAny_exact, List.any_cons, List.any_nil, Bool.or_false, holds_code]
    simp [bne]
  rw [← htest]
  exact readsChar_set fun _ => rfl

theorem mem_slashless {n : Nat} {limit : Option Nat} {piece : List Char} :
    piece ∈ exactly (· != '/') n * upTo (· != '/') limit ↔
      '/' ∉ piece ∧ n ≤ piece.length ∧ ∀ m, limit = some m → piece.length ≤ n + m := by
  have hslash : (∀ c ∈ piece, (c != '/') = true) ↔ '/' ∉ piece := by
    constructor
    · intro h hslash
      exact absurd (h _ hslash) (by decide)
    · intro h c hc
      simpa using ne_of_mem_of_not_mem hc h
  rw [mem_exactly_mul_upTo, hslash, ← and_assoc, and_comm]

theorem denotes_slashless_nonempty :
    Denotes "([^/]+)" (exactly (· != '/') 1 * upTo (· != '/') none) := by
  have hpieces : Denotes "[^/]+" _ :=
    ⟨_, rfl, readsChar_notSlash.rounds '+' [] (by decide) fun _ => rfl⟩
  exact hpieces.choice.capture

end Pattern

namespace Parameter

open Pattern

/-- The pattern of a parameter whose pattern is not declared is an expression in anchors that
denotes a language. -/
def IsAnchored (pattern : String) : Prop :=
  ∃ body L, pattern = "^" ++ body ++ "$" ∧ Denotes body L

/-! ## Bounds on the length -/

def IsBound (cs : List Char) : Prop :=
  ∃ digits, (∀ c ∈ digits, c.isDigit = true) ∧ (cs = digits ∨ cs = '-' :: digits)

theorem isDigit_of_mem_repr (n : Nat) : ∀ c ∈ n.repr.toList, c.isDigit = true := by
  intro c hc
  rw [Nat.toList_repr] at hc
  exact Nat.isDigit_of_mem_toDigits (by decide) (by decide) hc

theorem isBound_toString (n : Int) : IsBound (toString n).toList := by
  cases n with
  | ofNat m => exact ⟨_, isDigit_of_mem_repr m, .inl rfl⟩
  | negSucc m =>
      refine ⟨_, isDigit_of_mem_repr (m + 1), .inr ?_⟩
      show ("-" ++ (m + 1).repr).toList = _
      rw [String.toList_append]
      rfl

theorem IsBound.ordinary {cs : List Char} (h : IsBound cs) : ∀ c ∈ cs, isOrdinary c = true := by
  obtain ⟨digits, hdigits, hcs⟩ := h
  have hdigit : ∀ c : Char, c.isDigit = true → isOrdinary c = true := by
    intro c hc
    have hnone : (operators.all fun c => !c.isDigit) = true := by decide
    have hmem : c ∉ operators := fun hmem => by
      simpa [hc] using List.all_eq_true.1 hnone c hmem
    simpa [isOrdinary] using hmem
  rcases hcs with rfl | rfl
  · exact fun c hc => hdigit c (hdigits c hc)
  · rw [List.forall_mem_cons]
    exact ⟨by decide, fun c hc => hdigit c (hdigits c hc)⟩

/-- What stands between the anchors of a pattern for bounds on the length. -/
def lengthBody (low high : List Char) : List Char :=
  '(' :: (['[', '^', '/', ']'] ++ '\x7b' :: braces low high) ++ [')']

/-- The least length as a pattern has it. -/
def leastText (least : Option Int) : List Char :=
  (toString (least.getD 0)).toList

/-- The greatest length as a pattern has it, empty if there is none. -/
def mostText : Option Int → List Char
  | none => []
  | some n => (toString n).toList

theorem isBound_mostText (most : Option Int) : IsBound (mostText most) := by
  cases most with
  | none => exact ⟨[], by simp, .inl rfl⟩
  | some n => exact isBound_toString n

theorem lengthPattern_eq (least most : Option Int) : lengthPattern least most =
    "^" ++ String.ofList (lengthBody (leastText least) (mostText most)) ++ "$" := by
  apply String.toList_inj.1
  cases most <;> simp [lengthPattern, lengthBody, braces, leastText, mostText]

section Lengths

variable {low high : List Char} (hlow : IsBound low) (hhigh : IsBound high)
include hlow hhigh

theorem ordinary_braces : ∀ c ∈ braces low high, isOrdinary c = true := by
  intro c hc
  simp only [braces, List.mem_append, List.mem_cons, List.not_mem_nil, or_false] at hc
  rcases hc with hc | rfl | hc | rfl
  · exact hlow.ordinary c hc
  · decide
  · exact hhigh.ordinary c hc
  · decide

theorem tokens?_lengthBody : tokens? (lengthBody low high) = some
    (.plain '(' :: (notSlash ++ .plain '\x7b' :: (braces low high).map .plain) ++
      [.plain ')']) := by
  have hbraces : tokens? (braces low high) = some ((braces low high).map .plain) :=
    tokens?_plain (ordinary_braces hlow hhigh)
  exact tokens?_append (tokens?_append (a := "([^/]\x7b".toList) rfl hbraces) rfl

/-- Bounds on the length are read as bounds, stand for themselves, or are refused. -/
theorem readBraces_bounds :
    (∃ least most, ∀ rest, readBraces ((braces low high).map .plain ++ rest) =
      .ok (some (least, most, rest))) ∨
    (∀ rest, readBraces ((braces low high).map .plain ++ rest) = .ok none) ∨
    ∃ e, ∀ rest, readBraces ((braces low high).map .plain ++ rest) = .error e := by
  obtain ⟨digits, hdigits, rfl | rfl⟩ := hlow
  · obtain ⟨digits', hdigits', rfl | rfl⟩ := hhigh
    · have hread := readBraces_digits hdigits hdigits'
      cases hbounds : boundsOf low high with
      | ok bounds => exact .inl ⟨bounds.1, bounds.2, fun rest => by rw [hread, hbounds]; rfl⟩
      | error e => exact .inr (.inr ⟨e, fun rest => by rw [hread, hbounds]; rfl⟩)
    · exact .inr (.inl (readBraces_sign_high hdigits))
  · exact .inr (.inl readBraces_sign_low)

/-- Bounds that are read bound the number of characters. -/
theorem denotes_lengthBody {least : Nat} {most : Option Nat}
    (hbounds : ∀ rest, readBraces ((braces low high).map .plain ++ rest) =
      .ok (some (least, most, rest))) :
    Denotes (String.ofList (lengthBody low high))
      (exactly (· != '/') least * upTo (· != '/') (most.map (· - least))) := by
  have htokens := tokens?_lengthBody hlow hhigh
  rw [← String.toList_ofList (l := lengthBody low high)] at htokens
  exact ⟨_, htokens, (readsChar_notSlash.rounds '\x7b' _ (by decide) hbounds).choice.capture⟩

/-- Bounds that are refused leave no expression. -/
theorem read_lengthBody_ne_ok {e : Problem}
    (hrefused : ∀ rest, readBraces ((braces low high).map .plain ++ rest) = .error e)
    (node : Node) : Pattern.read ("^" ++ String.ofList (lengthBody low high) ++ "$") ≠ .ok node := by
  have htokens := tokens?_lengthBody hlow hhigh
  rw [← String.toList_ofList (l := lengthBody low high)] at htokens
  have hsober : ∀ rest,
      IsSober (notSlash ++ .plain '\x7b' :: (braces low high).map .plain ++ rest) :=
    fun rest => .plain (by decide) (by decide) _
  exact ((readsChar_notSlash.refuses hrefused).capture hsober).read htokens node

end Lengths

theorem isAnchored_lengthPattern {least most : Option Int} {node : Node}
    (h : Pattern.read (lengthPattern least most) = .ok node) :
    IsAnchored (lengthPattern least most) := by
  have heq := lengthPattern_eq least most
  have hlow : IsBound (leastText least) := isBound_toString _
  have hhigh := isBound_mostText most
  generalize leastText least = low at heq hlow
  generalize mostText most = high at heq hhigh
  rcases readBraces_bounds hlow hhigh with ⟨l, m, hbounds⟩ | hliteral | ⟨e, hrefused⟩
  · exact ⟨_, _, heq, denotes_lengthBody hlow hhigh hbounds⟩
  · have htokens := tokens?_lengthBody hlow hhigh
    rw [← String.toList_ofList (l := lengthBody low high)] at htokens
    have hbraces := reads_text fun c hc => readsChar_plain (ordinary_braces hlow hhigh c hc)
    exact ⟨_, _, heq, _, htokens,
      (readsChar_notSlash.reads.append (hbraces.brace hliteral)).choice.capture⟩
  · rw [heq] at h
    exact absurd h (read_lengthBody_ne_ok hlow hhigh hrefused node)

/-! ## Enumerations and types -/

theorem denotes_memberPattern {members : List Value} (hne : members ≠ []) :
    ∃ body, memberPattern members = "^" ++ body ++ "$" ∧
      Denotes body (anyOf (fun m => {m.shown.toList}) members) := by
  have hchoice := denotesChoice_intercalate hne fun m _ => denotes_escape m.shown
  exact ⟨_, String.toList_inj.1 (by simp [memberPattern]), hchoice.capture⟩

theorem isAnchored_memberPattern {members : List Value} (hne : members ≠ []) :
    IsAnchored (memberPattern members) := by
  obtain ⟨body, heq, hbody⟩ := denotes_memberPattern hne
  exact ⟨body, _, heq, hbody⟩

/-- The set of the digits of ASCII. -/
theorem readsChar_digits : ReadsChar [.plain '[', .plain '0', .plain '-', .plain '9', .plain ']']
    Char.isDigit := by
  have htest : (fun c => holdsAny [.range '0'.toNat '9'.toNat] .exact c != false) =
      Char.isDigit := by
    funext c
    rw [Bool.eq_iff_iff, Char.isDigit_iff_toNat, holdsAny_exact]
    simp [SetItem.holds]
  rw [← htest]
  exact readsChar_set fun _ => rfl

theorem readsChar_signs : ReadsChar [.plain '[', .plain '-', .plain '+', .plain ']']
    (fun c => c == '-' || c == '+') := by
  have htest : (fun c => holdsAny [.code '-'.toNat, .code '+'.toNat] .exact c != false) =
      fun c => c == '-' || c == '+' := by
    funext c
    simp only [holdsAny_exact, List.any_cons, List.any_nil, Bool.or_false, holds_code,
      Bool.bne_false]
  rw [← htest]
  exact readsChar_set fun _ => rfl

def optionalSign : Language Char :=
  exactly (fun c => c == '-' || c == '+') 0 * upTo (fun c => c == '-' || c == '+') (some 1)

def someDigits : Language Char :=
  exactly Char.isDigit 1 * upTo Char.isDigit none

theorem denotes_optionalSign : Denotes "[-+]?" optionalSign :=
  ⟨_, rfl, readsChar_signs.rounds '?' [] (by decide) fun _ => rfl⟩

theorem denotes_digits : Denotes "[0-9]+" someDigits :=
  ⟨_, rfl, readsChar_digits.rounds '+' [] (by decide) fun _ => rfl⟩

theorem denotes_integer : Denotes "[-+]?[0-9]+" (optionalSign * someDigits) :=
  denotes_optionalSign.append denotes_digits

theorem denotes_number : Denotes "[-+]?[0-9]*\\.?[0-9]+" (optionalSign *
    (exactly Char.isDigit 0 * upTo Char.isDigit none *
      (exactly (hasCode '.'.toNat .exact) 0 * upTo (hasCode '.'.toNat .exact) (some 1) *
        someDigits))) := by
  have hwhole : Denotes "[0-9]*" _ :=
    ⟨_, rfl, readsChar_digits.rounds '*' [] (by decide) fun _ => rfl⟩
  have hpoint : Denotes "\\.?" _ :=
    ⟨_, rfl, (readsChar_special (c := '.') (by decide)).rounds '?' [] (by decide)
      fun _ => rfl⟩
  exact denotes_optionalSign.append (hwhole.append (hpoint.append denotes_digits))

theorem denotes_boolean : Denotes "(true|false)" ({"true".toList} + {"false".toList}) := by
  have htrue : Denotes "true" _ := denotes_plain (by decide)
  have hfalse : Denotes "false" _ := denotes_plain (by decide)
  exact (htrue.choiceOr hfalse.choice).capture

theorem denotes_file : Denotes "(.*)" (exactly (fun c => false || c != '\n') 0 *
    upTo (fun c => false || c != '\n') none) := by
  have hany : Denotes ".*" _ :=
    ⟨_, rfl, readsChar_dot.rounds '*' [] (by decide) fun _ => rfl⟩
  exact hany.choice.capture

theorem denotes_words (words : List String) (hne : words ≠ [])
    (hplain : (words.all fun w => w.toList.all isOrdinary) = true) :
    ∃ L, Denotes ("(?:" ++ "|".intercalate words ++ ")") L := by
  have hchoice := denotesChoice_intercalate (f := id) hne fun w hw =>
    denotes_plain (List.all_eq_true.1 hplain w hw)
  rw [List.map_id] at hchoice
  exact ⟨_, hchoice.group⟩

theorem isAnchored_date : IsAnchored datePattern := by
  obtain ⟨_, hdays⟩ := denotes_words ["Mon", "Tue", "Wed", "Thu", "Fri", "Sat", "Sun"]
    (by decide) (by decide)
  obtain ⟨_, hmonths⟩ := denotes_words
    ["Jan", "Feb", "Mar", "Apr", "May", "Jun", "Jul", "Aug", "Sep", "Oct", "Nov", "Dec"]
    (by decide) (by decide)
  have hbounds : ∀ rest, readBounds? '\x7b' ([.plain '2', .plain '\x7d'] ++ rest) =
      .ok (some (2, some 2, rest)) := fun _ => rfl
  have hbounds' : ∀ rest, readBounds? '\x7b' ([.plain '4', .plain '\x7d'] ++ rest) =
      .ok (some (4, some 4, rest)) := fun _ => rfl
  have htwo : Denotes (digitsPattern 2) _ :=
    ⟨_, rfl, readsChar_digit.rounds '\x7b' [.plain '2', .plain '\x7d'] (by decide) hbounds⟩
  have hfour : Denotes (digitsPattern 4) _ :=
    ⟨_, rfl, readsChar_digit.rounds '\x7b' [.plain '4', .plain '\x7d'] (by decide) hbounds'⟩
  have hcomma : Denotes ", " _ := denotes_plain (by decide)
  have hspace : Denotes " " _ := denotes_plain (by decide)
  have hcolon : Denotes ":" _ := denotes_plain (by decide)
  have hzone : Denotes " GMT" _ := denotes_plain (by decide)
  have htime := htwo.append (hcolon.append (htwo.append (hcolon.append (htwo.append hzone))))
  have hday := hdays.append (hcomma.append (htwo.append hspace))
  have hyear := hspace.append (hfour.append (hspace.append htime))
  exact ⟨_, _, rfl, hday.append (hmonths.append hyear)⟩

/-! ## All parameters -/

theorem isAnchored_typePattern {type pattern : String} (h : typePattern? type = some pattern) :
    IsAnchored pattern := by
  unfold typePattern? at h
  split at h
  · exact Option.some.inj h ▸ ⟨_, _, rfl, denotes_number⟩
  · exact Option.some.inj h ▸ ⟨_, _, rfl, denotes_integer⟩
  · exact Option.some.inj h ▸ ⟨_, _, rfl, denotes_boolean⟩
  · exact Option.some.inj h ▸ isAnchored_date
  · exact Option.some.inj h ▸ ⟨_, _, rfl, denotes_file⟩
  · cases h

theorem isAnchored_default : IsAnchored "^([^/]+)$" :=
  ⟨_, _, rfl, denotes_slashless_nonempty⟩

/-- The pattern of a parameter that declares none denotes a language if it is an expression. -/
theorem isAnchored_matchPattern {p : Parameter} (hpattern : p.pattern.filter (· ≠ "") = none)
    {node : Node} (h : Pattern.read p.matchPattern = .ok node) : IsAnchored p.matchPattern := by
  unfold matchPattern at h ⊢
  rw [hpattern] at h ⊢
  split
  · next heq => cases heq
  · next members _ henum =>
      obtain ⟨-, hmembers⟩ := Option.filter_eq_some_iff.1 henum
      exact isAnchored_memberPattern (by rintro rfl; cases hmembers)
  · next htype => exact isAnchored_typePattern htype
  · next hnone henum htype =>
      rw [henum, htype] at h
      dsimp only at h
      split
      · next hbounds =>
          rw [if_pos hbounds] at h
          exact isAnchored_lengthPattern h
      · exact isAnchored_default

end Parameter

end Raml
