import Raml.Proofs.Pattern.ReadersAtEnds
import Raml.Proofs.Pattern.Reading
import Raml.Proofs.Pattern.Renumbering

/-! # Reading expressions inside others

Tokens that are read to their end inside a group are read alike in front of its closing parenthesis,
and an anchor at their end can be left out. With the groups numbered from a later number on they are
read alike as long as no group is referred to by its number and no flags are set for the whole
expression.
-/

namespace Raml

namespace Pattern

/-! ## Later groups -/

section Later

variable (k : Nat)

/-- What is known while an expression is read, with later groups. -/
def Progress.shift (pr : Progress) : Progress where
  flags := pr.flags
  groupCount := pr.groupCount + k
  names := pr.names.map fun n => (n.1, n.2 + k)
  closed := laterGroups k pr.closed
  behindFrom := pr.behindFrom.map (· + k)
  conditions := pr.conditions.map (· + k)

/-- What an opening parenthesis starts, with later groups. -/
def Opening.shift : Opening → Opening
  | .condition index => .condition (index + k)
  | .done node => .done (node.map (Node.shift k))
  | opening => opening

def Opening.isWhole : Opening → Bool
  | .whole _ => true
  | _ => false

theorem Progress.shift_zero (pr : Progress) : pr.shift 0 = pr := by
  simp [shift, laterGroups]

theorem Node.shift_zero (node : Node) : node.shift 0 = node := by
  induction node <;> simp_all [shift]

theorem readEscape_shift {c : Char} {ts : List Token} (h : numbersNoGroup c ts = true ∨ k = 0)
    (pr : Progress) : readEscape c ts (pr.shift k) =
      (readEscape c ts pr).map fun p => (p.1.shift k, p.2) := by
  obtain h | rfl := h
  case inr =>
    simp only [Progress.shift_zero, Node.shift_zero]
    cases readEscape c ts pr <;> rfl
  simp only [readEscape]
  cases hclass : class? pr.flags.ascii c with
  | some item => simp [Progress.shift, hclass, Except.map, Node.shift]
  | none =>
  cases hplace : place? pr.flags.ascii c with
  | some p => simp [Progress.shift, hclass, hplace, Except.map, Node.shift]
  | none =>
  cases hcontrol : controlCode? c with
  | some code => simp [Progress.shift, hclass, hplace, Except.map, Node.shift]
  | none =>
  simp only [Progress.shift, hclass, hplace]
  by_cases hzero : c = '0'
  · simp [hzero, Except.map, Node.shift]
  by_cases hdigit : c.isDigit = true
  · have hoctal : isOctalEscape c ts = true := by simpa [numbersNoGroup, hzero, hdigit] using h
    obtain ⟨d, e, rest, rfl, hread⟩ := readNumbered_octal hoctal
    simp only [hzero, hdigit, if_false, if_true, hread]
    split <;> rfl
  · simp only [hzero, hdigit, if_false]
    cases readCode c ts <;> rfl

theorem lookup_names (names : List (String × Nat)) (name : String) :
    (names.map fun n => (n.1, n.2 + k)).lookup name = (names.lookup name).map (· + k) := by
  induction names with
  | nil => rfl
  | cons n rest ih =>
      rw [List.map_cons, List.lookup_cons, List.lookup_cons, ih]
      split <;> rfl

theorem reference_shift (index : Nat) (pr : Progress) :
    reference (index + k) (pr.shift k) = (reference index pr).map (Node.shift k) := by
  have hclosed : (pr.shift k).closed.lookup (index + k) = pr.closed.lookup index :=
    lookup_laterGroups k pr.closed index
  unfold reference
  rw [hclosed]
  by_cases hnone : (pr.closed.lookup index).isNone = true
  · simp only [hnone, if_true]
    rfl
  · simp only [hnone]
    cases hfrom : pr.behindFrom with
    | none => simp [Progress.shift, hfrom, Except.map, Node.shift]
    | some first =>
        simp only [Progress.shift, hfrom, Option.map_some, Nat.add_le_add_iff_right]
        by_cases hfirst : first ≤ index <;> simp [hfirst, Except.map, Node.shift, refuse]

theorem usableBehind_shift (index : Nat) (pr : Progress) :
    usableBehind (index + k) (pr.shift k) = usableBehind index pr := by
  have hclosed : (pr.shift k).closed.lookup (index + k) = pr.closed.lookup index :=
    lookup_laterGroups k pr.closed index
  unfold usableBehind
  rw [hclosed]
  cases hfrom : pr.behindFrom with
  | none => simp [Progress.shift, hfrom]
  | some first => simp [Progress.shift, hfrom]

theorem conditionGroup_shift {name : List Char} (h : Text.isIdentifier name = true ∨ k = 0)
    (pr : Progress) : conditionGroup name (pr.shift k) = (conditionGroup name pr).map (· + k) := by
  obtain h | rfl := h
  case inr =>
    rw [Progress.shift_zero]
    cases conditionGroup name pr <;> rfl
  have hnames : (pr.shift k).names.lookup (String.ofList name) =
      (pr.names.lookup (String.ofList name)).map (· + k) := lookup_names k pr.names _
  simp only [conditionGroup, h, if_true, hnames]
  cases pr.names.lookup (String.ofList name) <;> rfl

theorem isRepeatable_shift (node : Node) : isRepeatable (node.shift k) = isRepeatable node := by
  cases node <;> rfl

theorem wrapped_shift (node : Node) : wrapped (node.shift k) = (wrapped node).shift k := by
  unfold wrapped
  rw [isRepeatable_shift]
  split <;> rfl

theorem sequence_shift (nodes : List Node) :
    sequence (nodes.map (Node.shift k)) = (sequence nodes).shift k := by
  induction nodes with
  | nil => rfl
  | cons a rest ih =>
      cases rest with
      | nil => rfl
      | cons b rest =>
          show (a.shift k).seq (sequence ((b :: rest).map (Node.shift k))) = _
          rw [ih]
          rfl

theorem readSet_shift {ts rest : List Token} {flags : Flags} {node : Node}
    (h : readSet ts flags = .ok (node, rest)) : node.shift k = node := by
  unfold readSet at h
  split at h
  obtain ⟨p, -, hnode⟩ := Except.bind_eq_ok_iff.1 h
  obtain ⟨rfl, -⟩ := Prod.mk.inj (Except.ok.inj hnode)
  rfl

end Later

/-! ## Self-contained expressions -/

/-- Whether what stands behind an opening parenthesis neither sets flags for the whole expression
nor asks for a group by its number. -/
def opensPlainly (ts : List Token) : Bool :=
  match ts with
  | .plain '?' :: .plain '(' :: ts => (takeUntil? ')' ts).all fun p => Text.isIdentifier p.1
  | .plain '?' :: ts =>
      match readFlags ts .none .none with
      | .ok (.whole _, _) => false
      | _ => true
  | _ => true

/-- Whether tokens set no flags for the whole expression and refer to groups by their names only.
Those inside a set are looked at like all others. -/
def isSelfContained : List Token → Bool
  | [] => true
  | .escaped c :: ts => numbersNoGroup c ts && isSelfContained ts
  | .plain c :: ts => (c ≠ '(' || opensPlainly ts) && isSelfContained ts

theorem isSelfContained_append {u v : List Token} (h : isSelfContained (u ++ v) = true) :
    isSelfContained v = true := by
  induction u with
  | nil => exact h
  | cons t u ih =>
      refine ih ?_
      cases t <;> exact (Bool.and_eq_true_iff.1 h).2

theorem isSelfContained_suffix {r u : List Token} (hr : r <:+ u) (h : isSelfContained u = true) :
    isSelfContained r = true := by
  obtain ⟨v, rfl⟩ := hr
  exact isSelfContained_append h

/-- Whether tokens are read alike with groups numbered later by `k`: they refer to none by its
number and set no flags for the whole expression, or the numbers stay, where such flags are refused
already. -/
def IsMovable (k : Nat) (leading : Bool) (u : List Token) : Prop :=
  isSelfContained u = true ∨ k = 0 ∧ leading = false

theorem IsMovable.suffix {k : Nat} {leading : Bool} {r u : List Token} (hr : r <:+ u)
    (h : IsMovable k leading u) : IsMovable k leading r :=
  h.imp_left (isSelfContained_suffix hr)

/-- What stands inside a group cannot set flags for the whole expression. -/
theorem IsMovable.inside {k : Nat} {leading : Bool} {u : List Token} (h : IsMovable k leading u) :
    IsMovable k false u :=
  h.imp_right fun hk => ⟨hk.1, rfl⟩

theorem setFlags?_isSome (f g : Flags) (on : Bool) (letters : List Char) :
    (setFlags? f on letters).isSome = (setFlags? g on letters).isSome := by
  induction letters generalizing f g with
  | nil => rfl
  | cons c letters ih =>
      have hfirst : (setFlag? f on c).isSome = (setFlag? g on c).isSome := by
        unfold setFlag?
        split <;> rfl
      simp only [setFlags?, List.foldlM_cons] at ih ⊢
      cases hf : setFlag? f on c with
      | none =>
          rw [hf] at hfirst
          rw [Option.isNone_iff_eq_none.1 (Option.isSome_eq_false_iff.1 hfirst.symm)]
      | some f' =>
          rw [hf] at hfirst
          obtain ⟨g', hg⟩ := Option.isSome_iff_exists.1 hfirst.symm
          rw [hg]
          exact ih f' g'

/-- Whether flags are set for the whole expression does not depend on those in force. -/
theorem readFlags_whole {ts rest : List Token} {whole inner f : Flags}
    (h : readFlags ts whole inner = .ok (.whole f, rest)) (whole' inner' : Flags) :
    ∃ f', readFlags ts whole' inner' = .ok (.whole f', rest) := by
  rcases htake : takeLetters ts with ⟨on, left⟩
  simp only [readFlags, htake] at h ⊢
  by_cases hkinds : (on.contains 'a' && on.contains 'u') = true
  · rw [if_pos hkinds] at h
    cases h
  simp only [if_neg hkinds] at h ⊢
  split at h
  · split at h
    · next f₀ hf =>
        split at h
        · cases h
        · next hsome =>
            have hsame := setFlags?_isSome whole whole' true on
            rw [hf] at hsame
            obtain ⟨f', hf'⟩ := Option.isSome_iff_exists.1 hsame.symm
            obtain ⟨-, rfl⟩ := Prod.mk.inj (Except.ok.inj h)
            exact ⟨f', by simp only [hf', if_neg hsome]⟩
    · cases h
  · split at h
    · cases h
    · split at h <;> cases h
  · split at h
    · split at h
      · cases h
      · split at h <;> cases h
    · cases h
  · cases h

/-! ## Openings -/

section Openings

variable {e e' u v : List Token} (he : IsOpenEnd e) (k : Nat) {pr pr₁ : Progress}
  {opening : Opening} {ts : List Token}

/-- Whether what an opening parenthesis starts is started in front of another end as well, with
later groups. -/
def OpensAlike (k : Nat) (e e' u : List Token) (pr : Progress) (opening : Opening)
    (ts : List Token) (pr₁ : Progress) : Prop :=
  pr₁.flags = pr.flags ∧ ∃ r, r <:+ u ∧ ts = r ++ e ∧
    readOpening (u ++ e') (pr.shift k) = .ok (opening.shift k, r ++ e', pr₁.shift k)

section Names

include he

theorem opensAlike_of_signs (signs : List Char) (hdollar : '$' ∉ signs)
    (heq : u ++ e = signs.map .plain ++ ts)
    (hsame : opening.shift k = opening)
    (hread : ∀ ts pr, readOpening (signs.map .plain ++ ts) pr = .ok (opening, ts, pr)) :
    OpensAlike k e e' u pr opening ts pr := by
  obtain ⟨v, rfl, rfl⟩ := he.signs_of_append signs hdollar heq
  refine ⟨rfl, v, List.suffix_append _ _, rfl, ?_⟩
  rw [List.append_assoc, hread, hsame]

theorem readOpening_name_splice
    (h : readOpening (.plain '?' :: .plain 'P' :: .plain '<' :: (v ++ e)) pr =
      .ok (opening, ts, pr₁)) :
    OpensAlike k e e' (.plain '?' :: .plain 'P' :: .plain '<' :: v) pr opening ts pr₁ := by
  simp only [readOpening] at h
  split at h
  · next name ts' htake =>
      obtain ⟨r, hr, rfl, hread⟩ := takeUntil?_replace he (by decide) htake
      split at h
      · next hname =>
          obtain ⟨rfl, rfl, rfl⟩ := by simpa using h
          refine ⟨rfl, r, hr.trans ⟨[_, _, _], rfl⟩, rfl, ?_⟩
          simp [readOpening, hread, hname, Opening.shift]
      · cases h
  · cases h

theorem readOpening_back_splice
    (h : readOpening (.plain '?' :: .plain 'P' :: .plain '=' :: (v ++ e)) pr =
      .ok (opening, ts, pr₁)) :
    OpensAlike k e e' (.plain '?' :: .plain 'P' :: .plain '=' :: v) pr opening ts pr₁ := by
  simp only [readOpening] at h
  split at h
  · next name ts' htake =>
      obtain ⟨r, hr, rfl, hread⟩ := takeUntil?_replace he (by decide) htake
      split at h
      · next index hindex =>
          obtain ⟨node, hnode, h⟩ := Except.bind_eq_ok_iff.1 h
          obtain ⟨rfl, rfl, rfl⟩ := by simpa using h
          have hnames : (pr.shift k).names.lookup (String.ofList name) = some (index + k) := by
            rw [Progress.shift, lookup_names, hindex]
            rfl
          refine ⟨rfl, r, hr.trans ⟨[_, _, _], rfl⟩, rfl, ?_⟩
          simp [readOpening, hread, hnames, reference_shift, hnode, Except.map, bind, Except.bind,
            Opening.shift]
      · cases h
  · cases h

theorem readOpening_comment_splice
    (h : readOpening (.plain '?' :: .plain '#' :: (v ++ e)) pr = .ok (opening, ts, pr₁)) :
    OpensAlike k e e' (.plain '?' :: .plain '#' :: v) pr opening ts pr₁ := by
  simp only [readOpening] at h
  split at h
  · next t ts' hdrop =>
      obtain ⟨r, hr, rfl, hread⟩ := dropWhile_replace he (by decide) hdrop
      obtain ⟨rfl, rfl, rfl⟩ := by simpa using h
      refine ⟨rfl, r, hr.trans ⟨[_, _], rfl⟩, rfl, ?_⟩
      simp only [List.cons_append, readOpening, hread]
      rfl
  · cases h

/-- A condition that names its group by the name is kept, for the group's later number. -/
theorem readOpening_condition_splice
    (hplain : opensPlainly (.plain '?' :: .plain '(' :: v) = true ∨ k = 0)
    (h : readOpening (.plain '?' :: .plain '(' :: (v ++ e)) pr = .ok (opening, ts, pr₁)) :
    OpensAlike k e e' (.plain '?' :: .plain '(' :: v) pr opening ts pr₁ := by
  simp only [readOpening] at h
  split at h
  · next name ts' htake =>
      obtain ⟨r, hr, rfl, hread⟩ := takeUntil?_replace he (by decide) htake
      obtain ⟨index, hindex, h⟩ := Except.bind_eq_ok_iff.1 h
      split at h
      · next husable =>
          obtain ⟨rfl, rfl, rfl⟩ := by simpa using h
          have hname : Text.isIdentifier name = true ∨ k = 0 := by
            have hown := hread []
            rw [List.append_nil, List.append_nil] at hown
            exact hplain.imp_left fun h => by simpa [opensPlainly, hown] using h
          have hgroup : conditionGroup name (pr.shift k) = .ok (index + k) := by
            rw [conditionGroup_shift k hname, hindex]
            rfl
          have hmay : usableBehind (index + k) (pr.shift k) = true :=
            (usableBehind_shift k index pr).trans husable
          refine ⟨rfl, r, hr.trans ⟨[_, _], rfl⟩, rfl, ?_⟩
          simp only [List.cons_append, readOpening, hread, hgroup, bind, Except.bind, hmay, if_true]
          rfl
      · cases h
  · cases h

/-- Flags, where nothing else can start. -/
theorem readOpening_flags_splice (he' : IsEnd e')
    (hflags : ∀ {e : List Token}, IsEnd e → ∀ pr, readOpening (.plain '?' :: (v ++ e)) pr =
      readFlags (v ++ e) pr.flags pr.flags >>= fun p =>
        match p with
        | (.whole f, ts) => .ok (.whole f, ts, pr)
        | (.forGroup f, ts) => .ok (.flags f, ts, pr))
    (h : readOpening (.plain '?' :: (v ++ e)) pr = .ok (opening, ts, pr₁)) :
    OpensAlike k e e' (.plain '?' :: v) pr opening ts pr₁ := by
  rw [hflags he.isEnd] at h
  obtain ⟨⟨change, ts'⟩, hchange, h⟩ := Except.bind_eq_ok_iff.1 h
  obtain ⟨r, hr, rfl, hread⟩ := readFlags_replace he hchange
  have hlater : readFlags (v ++ e') (pr.shift k).flags (pr.shift k).flags =
      .ok (change, r ++ e') := hread e'
  cases change with
  | whole f | forGroup f =>
      obtain ⟨rfl, rfl, rfl⟩ := by simpa using h
      refine ⟨rfl, r, hr.trans (List.suffix_cons _ _), rfl, ?_⟩
      rw [List.cons_append, hflags he', hlater]
      rfl

end Names

/-- Flags for the whole expression are set by letters behind a question mark. -/
theorem readOpening_eq_whole {f : Flags} (h : readOpening u pr = .ok (.whole f, ts, pr₁)) :
    ∃ v, u = .plain '?' :: v ∧ (∀ w, v ≠ .plain '(' :: w) ∧
      readFlags v pr.flags pr.flags = .ok (.whole f, ts) := by
  unfold readOpening at h
  split at h
  case h_11 v _ _ _ _ _ _ _ _ _ hcondition =>
    obtain ⟨⟨change, ts'⟩, hchange, h⟩ := Except.bind_eq_ok_iff.1 h
    cases change with
    | whole f' =>
        obtain ⟨rfl, rfl, rfl⟩ := by simpa using h
        exact ⟨v, rfl, hcondition, hchange⟩
    | forGroup f' => cases h
  case h_1 =>
    split at h
    · split at h <;> cases h
    · cases h
  case h_2 =>
    split at h
    · split at h
      · obtain ⟨node, -, h⟩ := Except.bind_eq_ok_iff.1 h
        cases h
      · cases h
    · cases h
  case h_4 => split at h <;> cases h
  case h_10 =>
    split at h
    · obtain ⟨index, -, h⟩ := Except.bind_eq_ok_iff.1 h
      split at h <;> cases h
    · cases h
  all_goals cases h

include he in
theorem isWhole_of_opensPlainly (hplain : opensPlainly u = true)
    (h : readOpening (u ++ e) pr = .ok (opening, ts, pr₁)) : opening.isWhole = false := by
  cases opening with
  | whole f =>
      obtain ⟨v, hv, hcondition, hflags⟩ := readOpening_eq_whole h
      obtain ⟨v', rfl, rfl⟩ := he.cons_of_append (by decide : '?' ≠ '$') hv
      obtain ⟨r, hr, rfl, hread⟩ := readFlags_replace he hflags
      have hown := hread []
      rw [List.append_nil, List.append_nil] at hown
      obtain ⟨f', hf'⟩ := readFlags_whole hown .none .none
      unfold opensPlainly at hplain
      split at hplain
      · next heq =>
          obtain ⟨-, rfl⟩ := List.cons.inj heq
          exact absurd rfl (hcondition _)
      · next heq =>
          obtain ⟨-, rfl⟩ := List.cons.inj heq
          simp [hf'] at hplain
      · next hother => exact absurd rfl (hother v')
  | _ => rfl

variable (he' : IsEnd e')
include he he'

/-- An opening is read alike in front of another end, and with later groups if it is plain. -/
theorem readOpening_splice (hplain : opensPlainly u = true ∨ k = 0)
    (h : readOpening (u ++ e) pr = .ok (opening, ts, pr₁)) :
    OpensAlike k e e' u pr opening ts pr₁ := by
  have hread := h
  unfold readOpening at h
  split at h
  · next heq =>
      obtain ⟨v, rfl, rfl⟩ := he.signs_of_append ['?', 'P', '<'] (by decide) heq
      exact readOpening_name_splice he k hread
  · next heq =>
      obtain ⟨v, rfl, rfl⟩ := he.signs_of_append ['?', 'P', '='] (by decide) heq
      exact readOpening_back_splice he k hread
  · next heq =>
      obtain ⟨rfl, rfl, rfl⟩ := by simpa using h
      exact opensAlike_of_signs he k ['?', ':'] (by decide) heq rfl fun _ _ => rfl
  · next heq =>
      obtain ⟨v, rfl, rfl⟩ := he.signs_of_append ['?', '#'] (by decide) heq
      exact readOpening_comment_splice he k hread
  · next heq =>
      obtain ⟨rfl, rfl, rfl⟩ := by simpa using h
      exact opensAlike_of_signs he k ['?', '='] (by decide) heq rfl fun _ _ => rfl
  · next heq =>
      obtain ⟨rfl, rfl, rfl⟩ := by simpa using h
      exact opensAlike_of_signs he k ['?', '!'] (by decide) heq rfl fun _ _ => rfl
  · next heq =>
      obtain ⟨rfl, rfl, rfl⟩ := by simpa using h
      exact opensAlike_of_signs he k ['?', '<', '='] (by decide) heq rfl fun _ _ => rfl
  · next heq =>
      obtain ⟨rfl, rfl, rfl⟩ := by simpa using h
      exact opensAlike_of_signs he k ['?', '<', '!'] (by decide) heq rfl fun _ _ => rfl
  · next heq =>
      obtain ⟨rfl, rfl, rfl⟩ := by simpa using h
      exact opensAlike_of_signs he k ['?', '>'] (by decide) heq rfl fun _ _ => rfl
  · next heq =>
      obtain ⟨v, rfl, rfl⟩ := he.signs_of_append ['?', '('] (by decide) heq
      exact readOpening_condition_splice he k hplain hread
  · next hname hback hgroup hcomment hahead hnot hbehind hnever hatomic hcondition heq =>
      obtain ⟨v, rfl, rfl⟩ := he.signs_of_append ['?'] (by decide) heq
      refine readOpening_flags_splice he k he' (fun {e'} he' pr => ?_) hread
      -- what does not come after the mark in front of this end does not in front of any other
      rewrite [readOpening]
      · rfl
      · exact he'.forall_ne_signs ['P', '<'] (by decide) (by decide) hname
      · exact he'.forall_ne_signs ['P', '='] (by decide) (by decide) hback
      · exact he'.forall_ne_signs [':'] (by decide) (by decide) hgroup
      · exact he'.forall_ne_signs ['#'] (by decide) (by decide) hcomment
      · exact he'.forall_ne_signs ['='] (by decide) (by decide) hahead
      · exact he'.forall_ne_signs ['!'] (by decide) (by decide) hnot
      · exact he'.forall_ne_signs ['<', '='] (by decide) (by decide) hbehind
      · exact he'.forall_ne_signs ['<', '!'] (by decide) (by decide) hnever
      · exact he'.forall_ne_signs ['>'] (by decide) (by decide) hatomic
      · exact he'.forall_ne_signs ['('] (by decide) (by decide) hcondition
  · next hother =>
      obtain ⟨rfl, rfl, rfl⟩ := by simpa using h
      have hhead : (u ++ e').head? ≠ some (.plain '?') := fun hhead => by
        obtain ⟨ts, heq⟩ := List.head?_eq_some_iff.1 hhead
        obtain ⟨w, rfl, -⟩ := he'.cons_of_append (by decide : '?' ≠ '$') (by decide) heq
        exact hother _ rfl
      exact ⟨rfl, u, List.suffix_rfl, rfl, readOpening_capture _ hhead⟩

end Openings

end Pattern

end Raml
