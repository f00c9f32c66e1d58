import Mathlib.Data.List.Infix
import Raml.Pattern.Reader
import Raml.Proofs.DataType.Building

/-! # Readers in front of ends

What reads a single part of an expression looks at the tokens in front of it, and some of these
readers look further than they take. An anchor for the end of the text, a closing parenthesis and
the end of the tokens are all the same to them: they go on with none of the three.
-/

namespace Raml

namespace Pattern

/-! ## Ends -/

/-- What can stand behind tokens that are read to their end: nothing, an anchor or a closing
parenthesis. -/
def IsEnd (e : List Token) : Prop :=
  e = [] ∨ ∃ c rest, e = .plain c :: rest ∧ (c = '$' ∨ c = ')')

/-- Nothing or an anchor. -/
def IsOpenEnd (e : List Token) : Prop := e = [] ∨ e = [.plain '$']

theorem IsOpenEnd.isEnd {e : List Token} (h : IsOpenEnd e) : IsEnd e :=
  h.imp_right fun h => ⟨'$', [], h, .inl rfl⟩

theorem IsEnd.head? {e : List Token} (h : IsEnd e) {c : Char} (hdollar : c ≠ '$')
    (hclose : c ≠ ')') : e.head? ≠ some (.plain c) := by
  rcases h with rfl | ⟨d, rest, rfl, hd⟩
  · simp
  · rintro heq
    obtain rfl := Token.plain.inj (Option.some.inj heq)
    exact hd.elim hdollar hclose

/-- A character in front of tokens and an end is one of the tokens unless it can start an end. -/
theorem IsEnd.cons_of_append {e u ts : List Token} (h : IsEnd e) {c : Char} (hdollar : c ≠ '$')
    (hclose : c ≠ ')') (heq : u ++ e = .plain c :: ts) :
    ∃ u', u = .plain c :: u' ∧ ts = u' ++ e := by
  cases u with
  | nil => exact absurd (congrArg List.head? heq) (h.head? hdollar hclose)
  | cons t u =>
      obtain ⟨rfl, rfl⟩ := List.cons.inj heq
      exact ⟨u, rfl, rfl⟩

theorem IsOpenEnd.cons_of_append {e u ts : List Token} (h : IsOpenEnd e) {c : Char}
    (hdollar : c ≠ '$') (heq : u ++ e = .plain c :: ts) :
    ∃ u', u = .plain c :: u' ∧ ts = u' ++ e := by
  cases u with
  | nil =>
      rcases h with rfl | rfl
      · cases heq
      · exact absurd (Token.plain.inj (List.cons.inj heq).1).symm hdollar
  | cons t u =>
      obtain ⟨rfl, rfl⟩ := List.cons.inj heq
      exact ⟨u, rfl, rfl⟩

theorem IsEnd.signs_of_append {e u ts : List Token} (h : IsEnd e) (signs : List Char)
    (hdollar : '$' ∉ signs) (hclose : ')' ∉ signs) (heq : u ++ e = signs.map .plain ++ ts) :
    ∃ u', u = signs.map .plain ++ u' ∧ ts = u' ++ e := by
  induction signs generalizing u with
  | nil => exact ⟨u, rfl, heq.symm⟩
  | cons c signs ih =>
      obtain ⟨w, rfl, hrest⟩ := h.cons_of_append (List.ne_of_not_mem_cons hdollar).symm
        (List.ne_of_not_mem_cons hclose).symm heq
      obtain ⟨u', rfl, hts⟩ := ih (List.not_mem_of_not_mem_cons hdollar)
        (List.not_mem_of_not_mem_cons hclose) hrest.symm
      exact ⟨u', rfl, hts⟩

theorem IsOpenEnd.signs_of_append {e u ts : List Token} (h : IsOpenEnd e) (signs : List Char)
    (hdollar : '$' ∉ signs) (heq : u ++ e = signs.map .plain ++ ts) :
    ∃ u', u = signs.map .plain ++ u' ∧ ts = u' ++ e := by
  induction signs generalizing u with
  | nil => exact ⟨u, rfl, heq.symm⟩
  | cons c signs ih =>
      obtain ⟨w, rfl, hrest⟩ := h.cons_of_append (List.ne_of_not_mem_cons hdollar).symm heq
      obtain ⟨u', rfl, hts⟩ := ih (List.not_mem_of_not_mem_cons hdollar) hrest.symm
      exact ⟨u', rfl, hts⟩

/-- Signs that do not stand in front of one end stand in front of no other. -/
theorem IsEnd.forall_ne_signs {e e' u : List Token} (he' : IsEnd e') (signs : List Char)
    (hdollar : '$' ∉ signs) (hclose : ')' ∉ signs)
    (hnone : ∀ ts, u ++ e = signs.map .plain ++ ts → False) :
    ∀ ts, u ++ e' = signs.map .plain ++ ts → False := by
  intro ts heq
  obtain ⟨w, rfl, -⟩ := he'.signs_of_append signs hdollar hclose heq
  exact hnone (w ++ e) (List.append_assoc _ _ _)

/-! ## Digits and codes -/

section Digits

variable (isDigit : Char → Bool) (hdollar : isDigit '$' = false) (hclose : isDigit ')' = false)
include hdollar hclose

theorem takeDigits_end {e : List Token} (he : IsEnd e) (n : Nat) :
    takeDigits isDigit n e = ([], e) := by
  rcases he with rfl | ⟨c, rest, rfl, hc⟩
  · cases n <;> rfl
  · have hnone : isDigit c = false := by rcases hc with rfl | rfl <;> assumption
    cases n with
    | zero => rfl
    | succ n => simp [takeDigits, hnone]

theorem takeDigits_alike (n : Nat) (u : List Token) :
    ∃ digits r, r <:+ u ∧ ∀ e, IsEnd e → takeDigits isDigit n (u ++ e) = (digits, r ++ e) := by
  induction u generalizing n with
  | nil => exact ⟨[], [], List.suffix_rfl, fun e he => takeDigits_end isDigit hdollar hclose he n⟩
  | cons t u ih =>
      cases n with
      | zero => exact ⟨[], t :: u, List.suffix_rfl, fun e _ => rfl⟩
      | succ n =>
          cases t with
          | escaped c => exact ⟨[], .escaped c :: u, List.suffix_rfl, fun e _ => rfl⟩
          | plain c =>
              by_cases hc : isDigit c = true
              · obtain ⟨digits, r, hr, htake⟩ := ih n
                refine ⟨c :: digits, r, hr.trans (List.suffix_cons _ _), fun e he => ?_⟩
                simp [takeDigits, hc, htake e he]
              · exact ⟨[], .plain c :: u, List.suffix_rfl, fun e _ => by simp [takeDigits, hc]⟩

theorem takeDigits_length (u : List Token) :
    ∃ digits r, r <:+ u ∧ ∀ e, IsEnd e → ∀ n, u.length ≤ n →
      takeDigits isDigit n (u ++ e) = (digits, r ++ e) := by
  induction u with
  | nil =>
      exact ⟨[], [], List.suffix_rfl, fun e he n _ => takeDigits_end isDigit hdollar hclose he n⟩
  | cons t u ih =>
      cases t with
      | escaped c =>
          exact ⟨[], .escaped c :: u, List.suffix_rfl, fun e _ n _ => by cases n <;> rfl⟩
      | plain c =>
          by_cases hc : isDigit c = true
          · obtain ⟨digits, r, hr, htake⟩ := ih
            refine ⟨c :: digits, r, hr.trans (List.suffix_cons _ _), fun e he n hn => ?_⟩
            obtain ⟨n, rfl⟩ : ∃ m, n = m + 1 := ⟨n - 1, by rw [List.length_cons] at hn; omega⟩
            simp [takeDigits, hc, htake e he n (Nat.le_of_succ_le_succ hn)]
          · refine ⟨[], .plain c :: u, List.suffix_rfl, fun e _ n _ => ?_⟩
            cases n <;> simp [takeDigits, hc]

end Digits

/-! ## Readers of single parts -/

/-- Whether a reader reads tokens alike, whatever end stands behind them. -/
def ReadsAlike {α : Type} (reader : List Token → Except Problem (α × List Token))
    (u : List Token) : Prop :=
  ∃ x : Except Problem (α × List Token), (∀ p, x = .ok p → p.2 <:+ u) ∧
    ∀ e, IsEnd e → reader (u ++ e) = x.map fun p => (p.1, p.2 ++ e)

section Single

variable {α : Type} {u : List Token}

theorem readsAlike_here (a : α) : ReadsAlike (fun ts => .ok (a, ts)) u :=
  ⟨.ok (a, u), fun _ h => Except.ok.inj h ▸ List.suffix_rfl, fun _ _ => rfl⟩

theorem readsAlike_refuse : ReadsAlike (fun _ => (refuse : Except Problem (α × List Token))) u :=
  ⟨refuse, nofun, fun _ _ => rfl⟩

theorem readsAlike_digits (isDigit : Char → Bool) (hdollar : isDigit '$' = false)
    (hclose : isDigit ')' = false) (n : Nat) {f : List Char → Except Problem α} :
    ReadsAlike (fun ts =>
      let (digits, rest) := takeDigits isDigit n ts
      (f digits).map fun a => (a, rest)) u := by
  obtain ⟨digits, r, hr, htake⟩ := takeDigits_alike isDigit hdollar hclose n u
  refine ⟨(f digits).map fun a => (a, r), fun p hp => ?_, fun e he => ?_⟩
  · cases hf : f digits with
    | error problem => simp [hf, Except.map] at hp
    | ok a =>
        rw [hf] at hp
        obtain rfl := Except.ok.inj hp
        exact hr
  · simp only [htake e he]
    cases f digits <;> rfl

theorem ReadsAlike.congr {reader reader' : List Token → Except Problem (α × List Token)}
    (h : ReadsAlike reader u) (heq : ∀ e, IsEnd e → reader' (u ++ e) = reader (u ++ e)) :
    ReadsAlike reader' u := by
  obtain ⟨x, hsuffix, hread⟩ := h
  exact ⟨x, hsuffix, fun e he => (heq e he).trans (hread e he)⟩

theorem ReadsAlike.map {β : Type} {reader : List Token → Except Problem (α × List Token)}
    (h : ReadsAlike reader u) (f : α → β) :
    ReadsAlike (fun ts => (reader ts).map fun p => (f p.1, p.2)) u := by
  obtain ⟨x, hsuffix, hread⟩ := h
  refine ⟨x.map fun p => (f p.1, p.2), fun p hp => ?_, fun e he => ?_⟩
  · cases x with
    | error problem => cases hp
    | ok q =>
        obtain rfl := Except.ok.inj hp
        exact hsuffix q rfl
  · simp only [hread e he]
    cases x <;> rfl

theorem ReadsAlike.replace {reader : List Token → Except Problem (α × List Token)}
    (h : ReadsAlike reader u) {e e' : List Token} (he : IsEnd e) (he' : IsEnd e') {a : α}
    {ts : List Token} (hok : reader (u ++ e) = .ok (a, ts)) :
    ∃ r, r <:+ u ∧ ts = r ++ e ∧ reader (u ++ e') = .ok (a, r ++ e') := by
  obtain ⟨x, hsuffix, hread⟩ := h
  rw [hread e he] at hok
  cases x with
  | error problem => cases hok
  | ok p =>
      obtain ⟨rfl, rfl⟩ := Prod.mk.inj (Except.ok.inj hok)
      exact ⟨p.2, hsuffix p rfl, rfl, hread e' he'⟩

theorem readCode_alike (c : Char) : ReadsAlike (readCode c) u := by
  cases hcount : hexCount? c with
  | some n =>
      refine (readsAlike_digits Text.isHexDigit (by decide) (by decide) n
        (f := fun digits => if digits.length = n && Text.numberOf 16 digits < 0x110000 then
          .ok (Text.numberOf 16 digits) else refuse)).congr fun e _ => ?_
      simp only [readCode, hcount]
      split <;> rfl
  | none =>
      by_cases hc : c.isAlphanum = true
      · exact readsAlike_refuse.congr fun e _ => by simp [readCode, hcount, hc]
      · exact (readsAlike_here c.toNat).congr fun e _ => by simp [readCode, hcount, hc]

theorem readSetEscape_alike (ascii : Bool) (c : Char) : ReadsAlike (readSetEscape ascii c) u := by
  by_cases hb : c = 'b'
  · exact (readsAlike_here (.code 8)).congr fun e _ => by simp [readSetEscape, hb]
  cases hcontrol : controlCode? c with
  | some code =>
      exact (readsAlike_here (.code code)).congr fun e _ => by simp [readSetEscape, hb, hcontrol]
  | none =>
      cases hclass : class? ascii c with
      | some item =>
          exact (readsAlike_here item).congr fun e _ => by
            simp [readSetEscape, hb, hcontrol, hclass]
      | none =>
          by_cases hoctal : Text.isOctalDigit c = true
          · refine (readsAlike_digits Text.isOctalDigit (by decide) (by decide) 2
              (f := fun digits => if Text.numberOf 8 (c :: digits) ≤ 0o377 then
                .ok (.code (Text.numberOf 8 (c :: digits))) else refuse)).congr fun e _ => ?_
            simp only [readSetEscape, hb, hcontrol, hclass, hoctal, if_false, if_true]
            split <;> rfl
          · refine ((readCode_alike c).map SetItem.code).congr fun e _ => ?_
            simp only [readSetEscape, hb, hcontrol, hclass, hoctal, if_false]
            cases readCode c (u ++ e) <;> rfl

theorem readSetItem_alike (ascii : Bool) (t : Token) : ReadsAlike (readSetItem ascii t) u := by
  cases t with
  | plain c => exact readsAlike_here _
  | escaped c => exact readSetEscape_alike ascii c

/-! ### Numbers -/

theorem plainDigit?_append {e : List Token} (he : IsEnd e) (u : List Token) :
    plainDigit? (u ++ e) = plainDigit? u := by
  cases u with
  | cons t u => cases t <;> rfl
  | nil =>
      rcases he with rfl | ⟨c, rest, rfl, hc⟩
      · rfl
      · rcases hc with rfl | rfl <;> rfl

theorem plainDigit?_drop_append {e : List Token} (he : IsEnd e) {u : List Token} {d : Char}
    (h : plainDigit? u = some d) : plainDigit? ((u ++ e).drop 1) = plainDigit? (u.drop 1) := by
  cases u with
  | nil => cases h
  | cons t u => exact plainDigit?_append he u

/-- Whether a digit starts a code of three digits, in front of some tokens. -/
def isOctalEscape (c : Char) (ts : List Token) : Bool :=
  match plainDigit? ts, plainDigit? (ts.drop 1) with
  | some d, some e => Text.isOctalDigit c && Text.isOctalDigit d && Text.isOctalDigit e
  | _, _ => false

/-- Whether a character after a backslash does not refer to a group by its number. -/
def numbersNoGroup (c : Char) (ts : List Token) : Bool :=
  !c.isDigit || c = '0' || isOctalEscape c ts

theorem isOctalEscape_append {e : List Token} (he : IsEnd e) (c : Char) (u : List Token) :
    isOctalEscape c (u ++ e) = isOctalEscape c u := by
  unfold isOctalEscape
  rw [plainDigit?_append he]
  cases hd : plainDigit? u with
  | none => rfl
  | some d => rw [plainDigit?_drop_append he hd]

theorem numbersNoGroup_append {e : List Token} (he : IsEnd e) (c : Char) (u : List Token) :
    numbersNoGroup c (u ++ e) = numbersNoGroup c u := by
  rw [numbersNoGroup, numbersNoGroup, isOctalEscape_append he]

theorem plainDigit?_eq_some {ts : List Token} {d : Char} (h : plainDigit? ts = some d) :
    d.isDigit = true ∧ ∃ rest, ts = .plain d :: rest := by
  unfold plainDigit? at h
  split at h
  · next c rest =>
      split at h
      · next hc =>
          obtain rfl := Option.some.inj h
          exact ⟨hc, rest, rfl⟩
      · cases h
  · cases h

theorem readNumbered_octal {c : Char} {ts : List Token} (h : isOctalEscape c ts = true) :
    ∃ d e rest, ts = .plain d :: .plain e :: rest ∧
      ∀ pr : Progress, ∀ rest, readNumbered c (.plain d :: .plain e :: rest) pr =
        if Text.numberOf 8 [c, d, e] ≤ 0o377 then
          .ok (.code (Text.numberOf 8 [c, d, e]) pr.flags.rule, rest) else refuse := by
  unfold isOctalEscape at h
  split at h
  · next d e hd he =>
      obtain ⟨hdigit, rest, rfl⟩ := plainDigit?_eq_some hd
      obtain ⟨hdigit', rest, hrest⟩ := plainDigit?_eq_some he
      obtain rfl : _ = Token.plain e :: rest := hrest
      refine ⟨d, e, rest, rfl, fun pr rest => ?_⟩
      simp [readNumbered, plainDigit?, hdigit, hdigit', h]
  · cases h

theorem readsAlike_of_rest {reader : List Token → Except Problem (α × List Token)}
    {x : Except Problem α} {v : List Token} (hv : v <:+ u)
    (h : ∀ e, IsEnd e → reader (u ++ e) = x.map fun a => (a, v ++ e)) : ReadsAlike reader u := by
  refine ⟨x.map fun a => (a, v), fun p hp => ?_, fun e he => ?_⟩
  · obtain ⟨a, -, rfl⟩ := Except.map_eq_ok_iff.1 hp
    exact hv
  · rw [h e he]
    cases x <;> rfl

theorem readNumbered_alike (c : Char) (pr : Progress) :
    ReadsAlike (fun ts => readNumbered c ts pr) u := by
  cases hd : plainDigit? u with
  | none =>
      refine readsAlike_of_rest (x := reference (Text.numberOf 10 [c]) pr) List.suffix_rfl
        fun e he => ?_
      simp only [readNumbered, plainDigit?_append he, hd]
      cases reference (Text.numberOf 10 [c]) pr <;> rfl
  | some d =>
      have hrest : u.drop 1 <:+ u := List.drop_suffix 1 u
      have hdrop : ∀ e, (u ++ e).drop 1 = u.drop 1 ++ e := fun e => by
        obtain ⟨-, v, rfl⟩ := plainDigit?_eq_some hd
        rfl
      cases hd' : plainDigit? (u.drop 1) with
      | none =>
          refine readsAlike_of_rest (x := reference (Text.numberOf 10 [c, d]) pr) hrest
            fun e he => ?_
          simp only [readNumbered, plainDigit?_append he, hd, hdrop, hd']
          cases reference (Text.numberOf 10 [c, d]) pr <;> rfl
      | some d' =>
          have hdrop' : ∀ e, ((u ++ e).drop 1).drop 1 = (u.drop 1).drop 1 ++ e := fun e => by
            obtain ⟨-, v, hv⟩ := plainDigit?_eq_some hd'
            rw [hdrop, hv]
            rfl
          by_cases hoctal :
              (Text.isOctalDigit c && Text.isOctalDigit d && Text.isOctalDigit d') = true
          · refine readsAlike_of_rest (x := if Text.numberOf 8 [c, d, d'] ≤ 0o377 then
              .ok (.code (Text.numberOf 8 [c, d, d']) pr.flags.rule) else refuse)
              ((List.drop_suffix 1 _).trans hrest) fun e he => ?_
            simp only [readNumbered, plainDigit?_append he, hd, hdrop, hd', hoctal, if_true]
            rw [← hdrop e, hdrop' e]
            split <;> rfl
          · refine readsAlike_of_rest (x := reference (Text.numberOf 10 [c, d]) pr) hrest
              fun e he => ?_
            simp only [readNumbered, plainDigit?_append he, hd, hdrop, hd', hoctal]
            cases reference (Text.numberOf 10 [c, d]) pr <;> rfl

theorem readEscape_alike (c : Char) (pr : Progress) :
    ReadsAlike (fun ts => readEscape c ts pr) u := by
  cases hclass : class? pr.flags.ascii c with
  | some item =>
      exact (readsAlike_here (.set false [item] .exact)).congr fun e _ => by
        simp [readEscape, hclass]
  | none =>
  cases hplace : place? pr.flags.ascii c with
  | some p =>
      exact (readsAlike_here (.place p)).congr fun e _ => by simp [readEscape, hclass, hplace]
  | none =>
  cases hcontrol : controlCode? c with
  | some code =>
      exact (readsAlike_here (.code code pr.flags.rule)).congr fun e _ => by
        simp [readEscape, hclass, hplace, hcontrol]
  | none =>
  by_cases hzero : c = '0'
  · refine (readsAlike_digits Text.isOctalDigit (by decide) (by decide) 2
      (f := fun digits => .ok (.code (Text.numberOf 8 (c :: digits)) pr.flags.rule))).congr
      fun e _ => ?_
    simp only [readEscape, hzero, if_true]
    rfl
  by_cases hdigit : c.isDigit = true
  · exact (readNumbered_alike c pr).congr fun e _ => by
      simp [readEscape, hclass, hplace, hcontrol, hzero, hdigit]
  · refine ((readCode_alike c).map (Node.code · pr.flags.rule)).congr fun e _ => ?_
    simp only [readEscape, hclass, hplace, hcontrol, hzero, hdigit, if_false]
    cases readCode c (u ++ e) <;> rfl

end Single

/-! ## Sets -/

theorem readSetItems_nil (ascii : Bool) (fuel : Nat) (items : List SetItem) :
    readSetItems ascii fuel items [] = refuse := by
  cases fuel <;> rfl

/-- A set that is not closed is refused. -/
theorem readSetItems_openEnd {e : List Token} (he : IsOpenEnd e) (ascii : Bool) (fuel : Nat)
    (items : List SetItem) : readSetItems ascii fuel items e = refuse := by
  rcases he with rfl | rfl
  · exact readSetItems_nil ascii fuel items
  · cases fuel with
    | zero => rfl
    | succ fuel => simp [readSetItems, readSetItem, readSetItems_nil, bind, Except.bind]

/-- What comes after the other end of a range. -/
def closeRange (ascii : Bool) (fuel : Nat) (items : List SetItem) (first second : SetItem)
    (ts : List Token) : Except Problem (List SetItem × List Token) :=
  match first, second with
  | .code low, .code high =>
      if high < low then refuse else readSetItems ascii fuel (items ++ [.range low high]) ts
  | _, _ => refuse

def continueSet (ascii : Bool) (fuel : Nat) (items : List SetItem) (first : SetItem)
    (ts : List Token) : Except Problem (List SetItem × List Token) :=
  match ts with
  | .plain '-' :: [] => refuse
  | .plain '-' :: .plain ']' :: ts => .ok (items ++ [first, .code '-'.toNat], ts)
  | .plain '-' :: u :: ts => do
      let (second, ts) ← readSetItem ascii u ts
      closeRange ascii fuel items first second ts
  | ts => readSetItems ascii fuel (items ++ [first]) ts

theorem readSetItems_cons (ascii : Bool) (fuel : Nat) (items : List SetItem) (t : Token)
    (ts : List Token) : readSetItems ascii (fuel + 1) items (t :: ts) =
      if t = .plain ']' && !items.isEmpty then .ok (items, ts)
      else readSetItem ascii t ts >>= fun p => continueSet ascii fuel items p.1 p.2 := rfl

section Replacing

variable {e e' u : List Token} (he : IsOpenEnd e) (he' : IsEnd e')
include he he'

omit he he' in
theorem closeRange_replace {ascii : Bool} {fuel : Nat}
    (ih : ∀ {u items items' ts}, readSetItems ascii fuel items (u ++ e) = .ok (items', ts) →
      ∃ r, r <:+ u ∧ ts = r ++ e ∧ ∀ fuel', u.length < fuel' →
        readSetItems ascii fuel' items (u ++ e') = .ok (items', r ++ e'))
    {items items' : List SetItem} {first second : SetItem} {ts : List Token}
    (h : closeRange ascii fuel items first second (u ++ e) = .ok (items', ts)) :
    ∃ r, r <:+ u ∧ ts = r ++ e ∧ ∀ fuel', u.length < fuel' →
      closeRange ascii fuel' items first second (u ++ e') = .ok (items', r ++ e') := by
  unfold closeRange at h
  split at h
  · next low high =>
      split at h
      · cases h
      · next hle =>
          obtain ⟨r, hr, rfl, hitems⟩ := ih h
          refine ⟨r, hr, rfl, fun fuel' hfuel => ?_⟩
          rw [closeRange, if_neg hle]
          exact hitems fuel' hfuel
  · cases h

/-- What comes after an item is read alike if further items are. -/
theorem continueSet_replace {ascii : Bool} {fuel : Nat}
    (ih : ∀ {u items items' ts}, readSetItems ascii fuel items (u ++ e) = .ok (items', ts) →
      ∃ r, r <:+ u ∧ ts = r ++ e ∧ ∀ fuel', u.length < fuel' →
        readSetItems ascii fuel' items (u ++ e') = .ok (items', r ++ e'))
    {items items' : List SetItem} {first : SetItem} {ts : List Token}
    (h : continueSet ascii fuel items first (u ++ e) = .ok (items', ts)) :
    ∃ r, r <:+ u ∧ ts = r ++ e ∧ ∀ fuel', u.length < fuel' →
      continueSet ascii fuel' items first (u ++ e') = .ok (items', r ++ e') := by
  unfold continueSet at h
  split at h
  · cases h
  · next heq =>
      obtain ⟨u, rfl, rfl⟩ := he.signs_of_append ['-', ']'] (by decide) heq
      obtain ⟨rfl, rfl⟩ := Prod.mk.inj (Except.ok.inj h)
      exact ⟨u, (List.suffix_cons _ _).trans (List.suffix_cons _ _), rfl, fun _ _ => rfl⟩
  · next t rest hclose heq =>
      obtain ⟨u, rfl, hrest⟩ := he.cons_of_append (by decide : '-' ≠ '$') heq
      obtain ⟨⟨second, ts'⟩, hsecond, h⟩ := Except.bind_eq_ok_iff.1 h
      cases u with
      | nil =>
          -- the end itself would be the other end of the range, and nothing closes the set
          rcases he with rfl | rfl
          · cases hrest
          · obtain ⟨rfl, rfl⟩ := List.cons.inj hrest
            obtain ⟨rfl, rfl⟩ := Prod.mk.inj (Except.ok.inj hsecond)
            cases first with
            | code low =>
                simp only [closeRange, readSetItems_nil] at h
                split at h <;> cases h
            | _ => cases h
      | cons v u =>
          obtain ⟨rfl, rfl⟩ := List.cons.inj hrest
          obtain ⟨r, hr, rfl, hread⟩ := (readSetItem_alike ascii t).replace he.isEnd he' hsecond
          have hstep : ∀ fuel', continueSet ascii fuel' items first (.plain '-' :: t :: u ++ e') =
              closeRange ascii fuel' items first second (r ++ e') := by
            intro fuel'
            rw [List.cons_append, List.cons_append, continueSet]
            · rw [hread]
              rfl
            · exact hclose
          obtain ⟨r', hr', rfl, hitems⟩ := closeRange_replace ih h
          have hsuffix : r' <:+ .plain '-' :: t :: u :=
            ((hr'.trans hr).trans (List.suffix_cons _ _)).trans (List.suffix_cons _ _)
          refine ⟨r', hsuffix, rfl, fun fuel' hfuel => ?_⟩
          have hlength := hr.length_le
          rw [hstep]
          exact hitems fuel' (by simp only [List.length_cons] at hfuel; omega)
  · next hlast hclose hrange =>
      -- neither end lets a hyphen come next
      have hother : ∀ u', u ≠ .plain '-' :: u' := by
        rintro u' rfl
        cases hu : u' ++ e with
        | nil => exact hlast (by rw [List.cons_append, hu])
        | cons t rest => exact hrange t rest (by rw [List.cons_append, hu])
      have hhyphen : ∀ rest, u ++ e' ≠ .plain '-' :: rest := fun rest heq => by
        obtain ⟨u', hu, -⟩ := he'.cons_of_append (by decide) (by decide) heq
        exact hother u' hu
      obtain ⟨r, hr, rfl, hitems⟩ := ih h
      refine ⟨r, hr, rfl, fun fuel' hfuel => ?_⟩
      rw [continueSet]
      · exact hitems fuel' hfuel
      · exact hhyphen _
      · exact fun _ => hhyphen _
      · exact fun _ _ => hhyphen _

theorem readSetItems_replace {ascii : Bool} {fuel : Nat} {u : List Token}
    {items items' : List SetItem} {ts : List Token}
    (h : readSetItems ascii fuel items (u ++ e) = .ok (items', ts)) :
    ∃ r, r <:+ u ∧ ts = r ++ e ∧ ∀ fuel', u.length < fuel' →
      readSetItems ascii fuel' items (u ++ e') = .ok (items', r ++ e') := by
  induction fuel generalizing u items items' ts with
  | zero => cases h
  | succ fuel ih =>
      cases u with
      | nil =>
          rw [List.nil_append, readSetItems_openEnd he] at h
          cases h
      | cons t u =>
          rw [List.cons_append, readSetItems_cons] at h
          by_cases hclose : (t = .plain ']' && !items.isEmpty) = true
          · rw [if_pos hclose] at h
            obtain ⟨rfl, rfl⟩ := Prod.mk.inj (Except.ok.inj h)
            refine ⟨u, List.suffix_cons _ _, rfl, fun fuel' hfuel => ?_⟩
            obtain ⟨fuel', rfl⟩ : ∃ n, fuel' = n + 1 := ⟨fuel' - 1, by omega⟩
            rw [List.cons_append, readSetItems_cons, if_pos hclose]
          · rw [if_neg hclose] at h
            obtain ⟨⟨first, ts'⟩, hfirst, h⟩ := Except.bind_eq_ok_iff.1 h
            obtain ⟨r, hr, rfl, hread⟩ := (readSetItem_alike ascii t).replace he.isEnd he' hfirst
            obtain ⟨r', hr', rfl, hcontinue⟩ := continueSet_replace he he' ih h
            refine ⟨r', (hr'.trans hr).trans (List.suffix_cons _ _), rfl, fun fuel' hfuel => ?_⟩
            obtain ⟨fuel', rfl⟩ : ∃ n, fuel' = n + 1 := ⟨fuel' - 1, by omega⟩
            -- an item takes a token at least, so what fuel is left is enough for the others
            have hlength := hr.length_le
            rw [List.cons_append, readSetItems_cons, if_neg hclose, hread]
            exact hcontinue fuel' (by simp only [List.length_cons] at hfuel; omega)

omit he he' in
theorem readSet_caret (ts : List Token) (flags : Flags) : readSet (.plain '^' :: ts) flags =
    (readSetItems flags.ascii (ts.length + 1) [] ts).map fun p =>
      (.set true p.1 flags.rule, p.2) := by
  show (readSetItems flags.ascii (ts.length + 1) [] ts >>= fun p => _) = _
  cases readSetItems flags.ascii (ts.length + 1) [] ts <;> rfl

omit he he' in
theorem readSet_of_ne {ts : List Token} (h : ∀ rest, ts ≠ .plain '^' :: rest) (flags : Flags) :
    readSet ts flags = (readSetItems flags.ascii (ts.length + 1) [] ts).map fun p =>
      (.set false p.1 flags.rule, p.2) := by
  unfold readSet
  split
  next negated rest heq =>
    split at heq
    · exact absurd rfl (h _)
    · obtain ⟨rfl, rfl⟩ := Prod.mk.inj heq
      cases readSetItems flags.ascii (ts.length + 1) [] ts <;> rfl

/-- A set is read alike in front of another end. -/
theorem readSet_replace {u ts : List Token} {flags : Flags} {node : Node}
    (h : readSet (u ++ e) flags = .ok (node, ts)) :
    ∃ r, r <:+ u ∧ ts = r ++ e ∧ readSet (u ++ e') flags = .ok (node, r ++ e') := by
  have hlength : ∀ v : List Token, v.length < (v ++ e').length + 1 := fun v => by
    rw [List.length_append]
    omega
  by_cases hcaret : ∃ v, u = .plain '^' :: v
  · obtain ⟨v, rfl⟩ := hcaret
    rw [List.cons_append, readSet_caret, Except.map_eq_ok_iff] at h
    obtain ⟨⟨items, ts⟩, hitems, heq⟩ := h
    obtain ⟨rfl, rfl⟩ := Prod.mk.inj heq
    obtain ⟨r, hr, rfl, hread⟩ := readSetItems_replace he he' hitems
    refine ⟨r, hr.trans (List.suffix_cons _ _), rfl, ?_⟩
    rw [List.cons_append, readSet_caret, hread _ (hlength v)]
    rfl
  · have hother : ∀ {e : List Token}, IsEnd e → ∀ rest, u ++ e ≠ .plain '^' :: rest :=
      fun he rest heq => by
        obtain ⟨v, hu, -⟩ := he.cons_of_append (by decide) (by decide) heq
        exact hcaret ⟨v, hu⟩
    rw [readSet_of_ne (hother he.isEnd), Except.map_eq_ok_iff] at h
    obtain ⟨⟨items, ts⟩, hitems, heq⟩ := h
    obtain ⟨rfl, rfl⟩ := Prod.mk.inj heq
    obtain ⟨r, hr, rfl, hread⟩ := readSetItems_replace he he' hitems
    refine ⟨r, hr, rfl, ?_⟩
    rw [readSet_of_ne (hother he'), hread _ (hlength u)]
    rfl

end Replacing

/-! ## Repetitions -/

theorem head?_append_end {e : List Token} (he : IsEnd e) (u : List Token) {c : Char}
    (hdollar : c ≠ '$') (hclose : c ≠ ')') :
    (u ++ e).head? = some (.plain c) ↔ u.head? = some (.plain c) := by
  cases u with
  | nil => exact iff_of_false (he.head? hdollar hclose) (by simp)
  | cons t u => simp

/-- The bounds of a repetition, from their digits and what comes after these. -/
def closeBraces (low high : List Char) (ts : List Token) :
    Except Problem (Option (Nat × Option Nat × List Token)) :=
  match ts with
  | .plain '\x7d' :: rest =>
      let least := Text.numberOf 10 low
      let most := if high.isEmpty then none else some (Text.numberOf 10 high)
      if roundLimit ≤ least || (most.any fun m => roundLimit ≤ m) then .error .tooLarge
      else if most.any fun m => m < least then refuse
      else .ok (some (least, most, rest))
  | _ => .ok none

theorem readBraces_eq (ts : List Token) : readBraces ts =
    let (low, rest) := takeDigits Char.isDigit ts.length ts
    let (high, rest) := if rest.head? = some (.plain ',') then
      takeDigits Char.isDigit rest.length (rest.drop 1) else (low, rest)
    if ts.head? = some (.plain '\x7d') then .ok none else closeBraces low high rest := rfl

/-- Whether there are bounds does not depend on what stands behind the braces. -/
theorem closeBraces_close (low high : List Char) :
    ∃ x : Except Problem (Nat × Option Nat), ∀ rest,
      closeBraces low high (.plain '\x7d' :: rest) = x.map fun b => some (b.1, b.2, rest) := by
  unfold closeBraces
  dsimp only
  generalize (if high.isEmpty then none else some (Text.numberOf 10 high) : Option Nat) = most
  generalize Text.numberOf 10 low = least
  refine ⟨if roundLimit ≤ least || (most.any fun m => roundLimit ≤ m) then .error .tooLarge
    else if most.any fun m => m < least then refuse else .ok (least, most), fun rest => ?_⟩
  change (if _ then _ else if _ then _ else _ : Except Problem _) = _
  split
  · rfl
  · split <;> rfl

/-- Whether bounds are read alike, whatever end stands behind. -/
def BoundsAlike (reader : List Token → Except Problem (Option (Nat × Option Nat × List Token)))
    (u : List Token) : Prop :=
  ∃ x : Except Problem (Option (Nat × Option Nat × List Token)),
    (∀ least most r, x = .ok (some (least, most, r)) → r <:+ u) ∧
    ∀ e, IsEnd e → reader (u ++ e) = x.map (Option.map fun b => (b.1, b.2.1, b.2.2 ++ e))

theorem closeBraces_alike (low high : List Char) (u : List Token) :
    BoundsAlike (closeBraces low high) u := by
  by_cases hclose : ∃ v, u = .plain '\x7d' :: v
  · obtain ⟨v, rfl⟩ := hclose
    obtain ⟨x, hread⟩ := closeBraces_close low high
    refine ⟨x.map fun b => some (b.1, b.2, v), fun least most r hr => ?_, fun e _ => ?_⟩
    · obtain ⟨b, -, hb⟩ := Except.map_eq_ok_iff.1 hr
      obtain ⟨-, hrest⟩ := Prod.mk.inj (Prod.mk.inj (Option.some.inj hb)).2
      exact hrest ▸ List.suffix_cons _ _
    · rw [List.cons_append, hread]
      cases x <;> rfl
  · refine ⟨.ok none, nofun, fun e he => ?_⟩
    unfold closeBraces
    split
    · next rest heq =>
        obtain ⟨v, hu, -⟩ := he.cons_of_append (by decide) (by decide) heq
        exact absurd ⟨v, hu⟩ hclose
    · rfl

theorem readBraces_alike (u : List Token) : BoundsAlike readBraces u := by
  obtain ⟨low, r, hr, hlow⟩ := takeDigits_length Char.isDigit (by decide) (by decide) u
  obtain ⟨digits, r', hr', hdigits⟩ :=
    takeDigits_length Char.isDigit (by decide) (by decide) (r.drop 1)
  by_cases hempty : u.head? = some (.plain '\x7d')
  · refine ⟨.ok none, nofun, fun e he => ?_⟩
    have hhead := (head?_append_end he u (by decide : '\x7d' ≠ '$') (by decide)).2 hempty
    rw [readBraces_eq]
    simp only [hhead, if_true]
    rfl
  -- the digits behind a comma, or else those in front of it once more
  obtain ⟨high, rest, hsuffix, hhigh⟩ : ∃ high rest, rest <:+ u ∧ ∀ e, IsEnd e →
      (if (r ++ e).head? = some (.plain ',') then
        takeDigits Char.isDigit (r ++ e).length ((r ++ e).drop 1) else (low, r ++ e)) =
        (high, rest ++ e) := by
    by_cases hcomma : r.head? = some (.plain ',')
    · refine ⟨digits, r', (hr'.trans (List.drop_suffix 1 r)).trans hr, fun e he => ?_⟩
      rw [if_pos ((head?_append_end he r (by decide) (by decide)).2 hcomma)]
      cases r with
      | nil => cases hcomma
      | cons t r =>
          refine hdigits e he _ ?_
          simp only [List.drop_succ_cons, List.drop_zero, List.length_append, List.length_cons]
          omega
    · refine ⟨low, r, hr, fun e he => ?_⟩
      rw [if_neg fun h => hcomma ((head?_append_end he r (by decide) (by decide)).1 h)]
  obtain ⟨x, hx, hread⟩ := closeBraces_alike low high rest
  refine ⟨x, fun least most r hr => (hx least most r hr).trans hsuffix, fun e he => ?_⟩
  have hhead : ¬ (u ++ e).head? = some (.plain '\x7d') := fun h =>
    hempty ((head?_append_end he u (by decide) (by decide)).1 h)
  rw [readBraces_eq, hlow e he _ (by rw [List.length_append]; omega)]
  simp only [hhigh e he, hhead, if_false]
  exact hread e he

theorem readBounds?_alike (c : Char) (u : List Token) : BoundsAlike (readBounds? c) u := by
  by_cases hbrace : c = '\x7b'
  · subst hbrace
    exact readBraces_alike u
  · have hbounds : ∀ b : Nat × Option Nat,
        BoundsAlike (fun ts => .ok (some (b.1, b.2, ts))) u := fun b =>
      ⟨.ok (some (b.1, b.2, u)), fun _ _ _ h => by
        obtain ⟨-, -, rfl⟩ := by simpa using h
        exact List.suffix_rfl, fun _ _ => rfl⟩
    unfold readBounds?
    split
    · exact hbounds (0, some 1)
    · exact hbounds (0, none)
    · exact hbounds (1, none)
    · exact absurd rfl hbrace
    · exact ⟨.ok none, nofun, fun _ _ => rfl⟩

/-- The preference is read alike, whatever end stands behind. -/
theorem readPreference_alike (u : List Token) : ∃ preference r, r <:+ u ∧
    ∀ e, IsEnd e → readPreference (u ++ e) = (preference, r ++ e) := by
  by_cases hfew : ∃ v, u = .plain '?' :: v
  · obtain ⟨v, rfl⟩ := hfew
    exact ⟨.fewest, v, List.suffix_cons _ _, fun _ _ => rfl⟩
  by_cases honly : ∃ v, u = .plain '+' :: v
  · obtain ⟨v, rfl⟩ := honly
    exact ⟨.mostOnly, v, List.suffix_cons _ _, fun _ _ => rfl⟩
  refine ⟨.most, u, List.suffix_rfl, fun e he => ?_⟩
  unfold readPreference
  split
  · next heq =>
      obtain ⟨v, hu, -⟩ := he.cons_of_append (by decide) (by decide) heq
      exact absurd ⟨v, hu⟩ hfew
  · next heq =>
      obtain ⟨v, hu, -⟩ := he.cons_of_append (by decide) (by decide) heq
      exact absurd ⟨v, hu⟩ honly
  · rfl

/-! ## Flags -/

section Flags

variable {e u : List Token} (he : IsOpenEnd e)
include he

/-- The letters of flags in front of a sign, which is not the end. -/
theorem takeLetters_replace {letters : List Char} {t : Token} {ts : List Token}
    (h : takeLetters (u ++ e) = (letters, t :: ts)) :
    ∃ r, t :: r <:+ u ∧ ts = r ++ e ∧ ∀ e', takeLetters (u ++ e') = (letters, t :: r ++ e') := by
  induction u generalizing letters with
  | nil => rcases he with rfl | rfl <;> cases h
  | cons v u ih =>
      cases v with
      | escaped c =>
          obtain ⟨rfl, hcons⟩ := Prod.mk.inj h
          obtain ⟨rfl, rfl⟩ := List.cons.inj hcons
          exact ⟨u, List.suffix_rfl, rfl, fun _ => rfl⟩
      | plain c =>
          simp only [List.cons_append, takeLetters] at h ⊢
          by_cases hstop : c = ')' ∨ c = ':' ∨ c = '-'
          · rw [if_pos (by simpa [or_assoc] using hstop)] at h
            obtain ⟨rfl, hcons⟩ := Prod.mk.inj h
            obtain ⟨rfl, rfl⟩ := List.cons.inj hcons
            refine ⟨u, List.suffix_rfl, rfl, fun e' => ?_⟩
            rw [if_pos (by simpa [or_assoc] using hstop)]
          · rw [if_neg (by simpa [or_assoc] using hstop)] at h
            obtain ⟨rfl, hrest⟩ := Prod.mk.inj h
            obtain ⟨r, hr, rfl, htake⟩ := ih (Prod.ext rfl hrest)
            refine ⟨r, hr.trans (List.suffix_cons _ _), rfl, fun e' => ?_⟩
            rw [if_neg (by simpa [or_assoc] using hstop), htake e']
            rfl

theorem readFlags_replace {whole inner : Flags} {change : FlagChange} {ts : List Token}
    (h : readFlags (u ++ e) whole inner = .ok (change, ts)) :
    ∃ r, r <:+ u ∧ ts = r ++ e ∧ ∀ e', readFlags (u ++ e') whole inner = .ok (change, r ++ e') := by
  rcases htake : takeLetters (u ++ e) with ⟨on, _ | ⟨t, rest⟩⟩
  · simp only [readFlags, htake] at h
    split at h <;> cases h
  · obtain ⟨r, hr, rfl, hread⟩ := takeLetters_replace he htake
    have hsuffix : r <:+ u := (List.suffix_cons _ _).trans hr
    simp only [readFlags, htake, hread] at h ⊢
    by_cases hkinds : (on.contains 'a' && on.contains 'u') = true
    · rw [if_pos hkinds] at h
      cases h
    simp only [if_neg hkinds] at h ⊢
    split at h
    · next heq =>
        obtain ⟨rfl, rfl⟩ := List.cons.inj heq
        split at h
        · next f hf =>
            split at h
            · cases h
            · next hsome =>
                obtain ⟨rfl, rfl⟩ := Prod.mk.inj (Except.ok.inj h)
                exact ⟨r, hsuffix, rfl, fun e' => by simp [hsome]⟩
        · cases h
    · next heq =>
        obtain ⟨rfl, rfl⟩ := List.cons.inj heq
        split at h
        · cases h
        · next hletters =>
            split at h
            · next f hf =>
                obtain ⟨rfl, rfl⟩ := Prod.mk.inj (Except.ok.inj h)
                refine ⟨r, hsuffix, rfl, fun e' => ?_⟩
                simp only [List.cons_append]
                exact if_neg hletters
            · cases h
    · next heq =>
        obtain ⟨rfl, rfl⟩ := List.cons.inj heq
        rcases htake' : takeLetters (r ++ e) with ⟨off, _ | ⟨t', rest'⟩⟩
        · simp only [htake'] at h
          cases h
        · obtain ⟨r', hr', rfl, hread'⟩ := takeLetters_replace he htake'
          simp only [htake'] at h
          split at h
          · next heq =>
              obtain ⟨rfl, rfl⟩ := List.cons.inj heq
              split at h
              · cases h
              · next hletters =>
                  split at h
                  · next f hf =>
                      obtain ⟨rfl, rfl⟩ := Prod.mk.inj (Except.ok.inj h)
                      have hsuffix' : r' <:+ u := ((List.suffix_cons _ _).trans hr').trans hsuffix
                      refine ⟨r', hsuffix', rfl, fun e' => ?_⟩
                      simp only [List.cons_append, hread' e', hf]
                      exact if_neg hletters
                  · cases h
          · cases h
    · cases h

end Flags

/-! ## Signs -/

section Signs

variable {c : Char} {a r : List Token} (ha : .plain c ∉ a)
include ha

theorem dropWhile_sign :
    (a ++ .plain c :: r).dropWhile (fun t => decide (t ≠ .plain c)) = .plain c :: r := by
  rw [List.dropWhile_append_of_pos fun t ht => decide_eq_true (ne_of_mem_of_not_mem ht ha)]
  exact List.dropWhile_cons_of_neg (by simp)

theorem takeWhile_sign :
    (a ++ .plain c :: r).takeWhile (fun t => decide (t ≠ .plain c)) = a := by
  rw [List.takeWhile_append_of_pos fun t ht => decide_eq_true (ne_of_mem_of_not_mem ht ha),
    List.takeWhile_cons_of_neg (by simp), List.append_nil]

theorem takeUntil?_sign :
    takeUntil? c (a ++ .plain c :: r) = if a.isEmpty then none else some (tokenText a, r) := by
  simp only [takeUntil?, dropWhile_sign ha, takeWhile_sign ha]

end Signs

section Signs

variable {e u : List Token} (he : IsOpenEnd e) {c : Char} (hc : c ≠ '$')
include he hc

/-- A sign that is found is not in the end. -/
theorem sign_of_dropWhile
    (h : (u ++ e).dropWhile (fun t => decide (t ≠ .plain c)) ≠ []) :
    ∃ a r, u = a ++ .plain c :: r ∧ .plain c ∉ a := by
  have hmem : .plain c ∈ u := by
    by_contra hnone
    refine h (List.dropWhile_eq_nil_iff.2 fun t ht => decide_eq_true ?_)
    rintro rfl
    rcases List.mem_append.1 ht with hu | hin
    · exact hnone hu
    · rcases he with rfl | rfl
      · cases hin
      · exact hc (Token.plain.inj (List.mem_singleton.1 hin))
  obtain ⟨a, r, hu, ha⟩ := List.eq_append_cons_of_mem hmem
  exact ⟨a, r, hu, ha⟩

theorem takeUntil?_replace {name : List Char} {ts : List Token}
    (h : takeUntil? c (u ++ e) = some (name, ts)) :
    ∃ r, r <:+ u ∧ ts = r ++ e ∧ ∀ e', takeUntil? c (u ++ e') = some (name, r ++ e') := by
  have hne : (u ++ e).dropWhile (fun t => decide (t ≠ .plain c)) ≠ [] := fun hnil => by
    simp only [takeUntil?, hnil] at h
    cases h
  obtain ⟨a, r, rfl, ha⟩ := sign_of_dropWhile he hc hne
  rw [List.append_assoc, List.cons_append, takeUntil?_sign ha] at h
  split at h
  · cases h
  · next hempty =>
      obtain ⟨rfl, rfl⟩ := Prod.mk.inj (Option.some.inj h)
      refine ⟨r, (List.suffix_cons _ _).trans (List.suffix_append _ _), rfl, fun e' => ?_⟩
      rw [List.append_assoc, List.cons_append, takeUntil?_sign ha, if_neg hempty]

theorem dropWhile_replace {t : Token} {ts : List Token}
    (h : (u ++ e).dropWhile (fun t => decide (t ≠ .plain c)) = t :: ts) :
    ∃ r, r <:+ u ∧ ts = r ++ e ∧
      ∀ e', (u ++ e').dropWhile (fun t => decide (t ≠ .plain c)) = t :: (r ++ e') := by
  have hne : (u ++ e).dropWhile (fun t => decide (t ≠ .plain c)) ≠ [] := h ▸ List.cons_ne_nil t ts
  obtain ⟨a, r, rfl, ha⟩ := sign_of_dropWhile he hc hne
  rw [List.append_assoc, List.cons_append, dropWhile_sign ha] at h
  obtain ⟨rfl, rfl⟩ := List.cons.inj h
  refine ⟨r, (List.suffix_cons _ _).trans (List.suffix_append _ _), rfl, fun e' => ?_⟩
  rw [List.append_assoc, List.cons_append, dropWhile_sign ha]

end Signs

theorem skipComment_replace {e u : List Token} (he : IsOpenEnd e) (h : skipComment (u ++ e) ≠ []) :
    ∃ r, r <:+ u ∧ skipComment (u ++ e) = r ++ e ∧ ∀ e', skipComment (u ++ e') = r ++ e' := by
  cases hdrop : (u ++ e).dropWhile (fun t => decide (t ≠ .plain '\n')) with
  | nil => exact absurd (by simp only [skipComment, hdrop, List.drop_nil]) h
  | cons t ts =>
      obtain ⟨r, hr, rfl, hread⟩ := dropWhile_replace he (by decide) hdrop
      refine ⟨r, hr, by simp only [skipComment, hdrop, List.drop_succ_cons, List.drop_zero],
        fun e' => ?_⟩
      simp only [skipComment, hread e', List.drop_succ_cons, List.drop_zero]

end Pattern

end Raml
