import Raml.Proofs.Pattern.Anchors
import Raml.Proofs.Resource.RoutedParameters

/-! # Declared patterns in templates

A parameter's own pattern stands in the pattern of a resource without its anchors, in a group behind
the literal text of the URI. If it can be read inside a group, the pattern of the resource compiles,
and behind a slash it matches what is read there matches in full, unless that looks around or
requires the start of the text. A pattern that refers to its groups by name means the same there as
alone.
-/

namespace Raml

namespace Pattern

/-! ## Reading -/

/-- Whether parts take a text, whatever stands in front of it and behind, and leave groups alone. -/
def TakeText (stem : List Char) (nodes : List Node) : Prop :=
  ∀ (position : Nat) (before rest : List Char) (groups : List (Nat × List Char))
    (follow : Continuation), runAll nodes ⟨position, before, stem ++ rest, groups⟩ follow =
      follow ⟨position + stem.length, stem.reverse ++ before, rest, groups⟩

theorem reads_stem (stem : List Char) : ∃ nodes : List Node, TakeText stem nodes ∧
    ∀ (rest : List Token) (pr : Progress) (fuel : Nat) (leading : Bool) (parts : List Node),
      pr.IsClear → readSequence (fuel + stem.length) leading parts (stem.map literal ++ rest) pr =
        readSequence fuel leading (parts ++ nodes) rest pr := by
  induction stem with
  | nil => exact ⟨[], fun _ _ _ _ _ => rfl, fun _ _ _ _ parts _ => by simp⟩
  | cons c stem ih =>
      obtain ⟨nodes, htakes, hreads⟩ := ih
      obtain ⟨node, hnode, -, hread⟩ := (readsChar_literal c).node
      refine ⟨node :: nodes, fun position before rest groups follow => ?_,
        fun rest pr fuel leading parts hclear => ?_⟩
      · have hsame : hasCode c.toNat .exact c = true := hasCode_exact_iff.2 rfl
        have hrest := htakes (position + 1) (c :: before) rest groups follow
        simp only [runAll, hnode, runChar, Cursor.next?, List.cons_append, hsame, if_true, hrest,
          List.length_cons, List.reverse_cons, List.append_assoc, List.nil_append]
        rw [Nat.add_right_comm, Nat.add_assoc]
      · have hfirst := hread (stem.map literal ++ rest) pr (fuel + stem.length) leading parts hclear
        rw [List.length_cons, ← Nat.add_assoc]
        exact hfirst.trans ((hreads rest pr fuel leading _ hclear).trans (by simp))

/-- What is read inside a group starts with no repetition. -/
theorem head?_of_readInGroup {source : String} {us : List Token} {body : Node}
    (htokens : tokens? source.toList = some us) (h : readInGroup source = .ok body) :
    us.head? ≠ some (.plain '?') := by
  intro hhead
  obtain ⟨v, rfl⟩ := List.head?_eq_some_iff.1 hhead
  obtain ⟨ts, pr, htokens', halternatives, -⟩ := readInGroup_eq_ok_iff.1 h
  rw [htokens] at htokens'
  obtain rfl := Option.some.inj htokens'
  rw [List.length_cons, readAlternatives_eq, readChoice] at halternatives
  simp [readSequence, readBounds?, Progress.initial, Progress.shift, Flags.none, refuse, bind,
    Except.bind] at halternatives

theorem readGroup_inside {source : String} {us : List Token} {body : Node}
    (htokens : tokens? source.toList = some us) (h : readInGroup source = .ok body)
    (rest : List Token) :
    ∃ pr : Progress, pr.flags = .none ∧ pr.asksTooMuch = false ∧
      ∀ fuel, 3 * (us ++ .plain ')' :: rest).length + 2 < fuel →
        readGroup fuel (.capture none) (us ++ .plain ')' :: rest) .initial =
          .ok (some (.group 1 body), rest, pr) := by
  obtain ⟨ts, pr, htokens', halternatives, hconditions⟩ := readInGroup_eq_ok_iff.1 h
  rw [htokens] at htokens'
  obtain rfl := Option.some.inj htokens'
  rw [readAlternatives_eq, ← List.append_nil us] at halternatives
  obtain ⟨hflags, body', hsame, hread⟩ := readChoice_replace (k := 0) (.inl rfl : IsOpenEnd [])
    (.inr ⟨rest, rfl⟩ : IsShut (.plain ')' :: rest)) (.inr ⟨rfl, rfl⟩) rfl halternatives
  obtain rfl := hsame rfl
  simp only [Progress.shift_zero, Node.shift_zero] at hread
  refine ⟨{ pr with closed := (1, body'.width pr.closed) :: pr.closed }, hflags, hconditions,
    fun fuel hfuel => ?_⟩
  obtain ⟨fuel, rfl⟩ : ∃ n, fuel = n + 1 := ⟨fuel - 1, by omega⟩
  rw [readGroup_encloses rfl]
  show readAlternatives fuel false _ (Progress.initial.shift 1) >>= _ = _
  rw [hread fuel (by omega) false]
  rfl

theorem readSequence_anchor {pr : Progress} (h : pr.flags = .none) (fuel : Nat) (leading : Bool)
    (parts : List Node) : readSequence (fuel + 2) leading parts [.plain '$'] pr =
      .ok (parts ++ [.place (.stop false)], [], pr) := by
  simp [readSequence, readBounds?, isSkipped, h, Flags.none, plainNode, bind, Except.bind]

theorem read_behind_stem {source template : String} {us : List Token} {body : Node}
    {stem : List Char} (htokens : tokens? source.toList = some us)
    (h : readInGroup source = .ok body)
    (htemplate : tokens? template.toList =
      some (stem.map literal ++ .plain '(' :: (us ++ [.plain ')']))) :
    ∃ nodes : List Node, TakeText stem nodes ∧ read ("^" ++ template ++ "$") =
      .ok (sequence (anchored (nodes ++ [.group 1 body]))) := by
  obtain ⟨nodes, htakes, hreads⟩ := reads_stem stem
  obtain ⟨pr, hflags, hconditions, hgroup⟩ := readGroup_inside htokens h [.plain '$']
  have hhead : (us ++ [Token.plain ')', Token.plain '$']).head? ≠ some (.plain '?') := by
    cases us with
    | nil => simp
    | cons t us => simpa using head?_of_readInGroup htokens h
  have hwhole : .plain '^' :: (stem.map literal ++ .plain '(' :: (us ++ [.plain ')']) ++
      [.plain '$']) = .plain '^' :: (stem.map literal ++ .plain '(' ::
        (us ++ [Token.plain ')', Token.plain '$'])) := by simp
  -- the anchor, the stem, the group and the other anchor, each with what fuel is left
  have hsequence : ∀ fuel, 3 * (us ++ [Token.plain ')', Token.plain '$']).length + 2 < fuel →
      readSequence (fuel + 1 + stem.length + 1) true []
        (.plain '^' :: (stem.map literal ++ .plain '(' ::
          (us ++ [Token.plain ')', Token.plain '$']))) .initial =
        .ok (anchored (nodes ++ [.group 1 body]), [], pr) := by
    intro fuel hfuel
    rw [readSequence_plain _ _ _ _ Progress.initial_isClear (by decide) rfl,
      hreads _ _ _ _ _ Progress.initial_isClear,
      readSequence_capture _ _ _ _ Progress.initial_isClear hhead (hgroup fuel hfuel)]
    obtain ⟨fuel, rfl⟩ : ∃ n, fuel = n + 2 := ⟨fuel - 2, by omega⟩
    rw [readSequence_anchor hflags]
    simp [anchored, plainNode, Flags.none]
  refine ⟨nodes, htakes, read_eq_ok_iff.2
    ⟨_, pr, tokens?_anchored htemplate, ?_, ?_, hconditions⟩⟩
  · rw [hwhole, readAlternatives_eq, readChoice]
    generalize hlength : 3 * (Token.plain '^' :: (stem.map literal ++ Token.plain '(' ::
      (us ++ [Token.plain ')', Token.plain '$']))).length + 2 = length
    simp only [List.length_cons, List.length_append, List.length_map, List.length_nil] at hlength
    have hread := hsequence (length - stem.length - 2)
      (by simp only [List.length_append, List.length_cons, List.length_nil]; omega)
    rw [show length - stem.length - 2 + 1 + stem.length + 1 = length by omega] at hread
    refine Except.bind_eq_ok_iff.2 ⟨_, hread, ?_⟩
    obtain ⟨fuel, rfl⟩ : ∃ n, length = n + 1 := ⟨length - 1, by omega⟩
    exact readFurther_stop (by simp) fuel _ pr
  · rw [hflags]
    rfl

/-! ## Matching -/

theorem runAll_behind_stem {node : Node} {nodes : List Node} {stem text : List Char}
    (htakes : TakeText stem nodes) :
    runAll (anchored (nodes ++ [.group 1 (node.shift 1)])) (.start (stem ++ text)) some =
      (node.shift 1).run ((Cursor.start text).inside stem.reverse 1) fun s =>
        let s' := s.record 1 (s.since ((Cursor.start text).inside stem.reverse 1))
        if isAt (.stop false) s' then some s' else none := by
  have hstart : ⟨0 + stem.length, stem.reverse ++ [], text, []⟩ =
      (Cursor.start text).inside stem.reverse 1 := by
    simp [Cursor.start, Cursor.inside, laterGroups]
  rw [← hstart]
  simp only [anchored, List.cons_append, runAll, runAll_append]
  show runAll nodes ⟨0, [], stem ++ text, []⟩ _ = _
  rw [htakes]
  rfl

/-- Where the text holds no line feed, the anchor behind the group stands at its end alone. -/
theorem follows_stop {lead text : List Char} (hline : '\n' ∉ text) :
    Follows lead 1 text (fun s => (s.record 0 (s.since (.start text))).inside lead 1)
      (fun s => if s.rest.isEmpty then some s else none)
      (fun s => let s' := s.record 1 (s.since ((Cursor.start text).inside lead 1))
        if isAt (.stop false) s' then some s' else none) := by
  intro s hs
  have hfeed : (s.rest == ['\n']) = false := by
    refine beq_eq_false_iff_ne.2 fun heq => hline ?_
    rw [← hs, heq]
    simp
  have hstop : isAt (.stop false) ((s.inside lead 1).record 1
      ((s.inside lead 1).since ((Cursor.start text).inside lead 1))) = s.rest.isEmpty := by
    simp [isAt, Cursor.record, Cursor.inside, hfeed]
  simp only [hstop]
  split
  · rw [Cursor.inside_since]
    exact congrArg some (Cursor.inside_record lead 1 s 0 _)
  · rfl

/-- Behind a literal text that ends in no word character, an anchored group matches what its
contents match in full. -/
theorem matchesStart_behind_stem {node : Node} {nodes : List Node} {stem text : String}
    (hstem : EndsOutsideWord stem.toList.reverse) (htakes : TakeText stem.toList nodes)
    (hlooks : node.looks = false) (hplaces : ∀ p ∈ node.places, p.IsPortable text.toList)
    (hline : '\n' ∉ text.toList) :
    (sequence (anchored (nodes ++ [.group 1 (node.shift 1)]))).matchesStart (stem ++ text) =
      node.matchesAll text := by
  rw [Node.matchesStart, Node.matchesFrom, Node.matchesAll, String.toList_append, sequence_run,
    runAll_behind_stem htakes,
    (node.mirrors_shift hstem hlooks hplaces).same (Cursor.isIn_start _) (follows_stop hline),
    Option.isSome_map]

end Pattern

open Pattern

/-! ## Templates -/

namespace Template

theorem tokens?_literals {parameters : Parameters} {t : Template} {ts : List Token}
    (h : tokens? (String.join (t.map (partPattern parameters))).toList = some ts)
    (stem : List Char) :
    tokens? (String.join ((stem.map TemplatePart.literal ++ t).map
      (partPattern parameters))).toList = some (stem.map Pattern.literal ++ ts) := by
  induction stem with
  | nil => exact h
  | cons c stem ih =>
      have hfirst : tokens? (partPattern parameters (.literal c)).toList =
          some [Pattern.literal c] := by
        have hescape := tokens?_escape c.toString
        rw [Char.toString_eq_singleton, String.toList_singleton] at hescape
        exact hescape
      rw [List.map_cons, List.cons_append, List.map_cons, String.join_cons, String.toList_append,
        List.map_cons, List.cons_append]
      exact tokens?_append hfirst ih

end Template

theorem endsOutsideWord_slash (stem : String) :
    EndsOutsideWord (stem ++ "/").toList.reverse := by
  refine ⟨'/', stem.toList.reverse, by simp, fun ascii => ?_⟩
  cases ascii <;> decide

/-- The pattern of a resource whose URI ends in a placeholder compiles if the declared one can be
read inside a group, without the signs at its ends that are taken for anchors. What is read there,
with its groups numbered from one on, is what the resource matches in full behind a slash, unless it
looks around or requires the start of the text, or a place that an empty text has not. A pattern
that stands alone can be read so, and then that is what it means without its anchors. -/
theorem Resource.EndsIn.matchesUri_spliced {r : Resource} {stem key : String} {p : Parameter}
    (h : r.EndsIn (stem ++ "/") key p) {pattern : String} (hpattern : p.pattern = some pattern)
    (hne : pattern ≠ "") {node : Node} (hread : Pattern.read pattern = .ok node) :
    (standsAlone pattern = true → ∃ inner, Pattern.read (unanchored pattern) = .ok inner ∧
      readInGroup (Template.withoutAnchors pattern) = .ok (inner.shift 1)) ∧
    ∀ inner : Node, readInGroup (Template.withoutAnchors pattern) = .ok (inner.shift 1) →
      ∃ outer, Pattern.read r.uriPattern = .ok outer ∧
        ∀ s : String, '?' ∉ s.toList → '\n' ∉ s.toList → inner.looks = false →
          (∀ q ∈ inner.places, q.IsPortable s.toList) →
            r.matchesUri (stem ++ "/" ++ s) = .ok (inner.matchesAll s) := by
  refine ⟨readInGroup_of_standsAlone hread, fun inner hinner => ?_⟩
  obtain ⟨us, -, htokens, -⟩ := readInGroup_eq_ok_iff.1 hinner
  have hplaceholder : tokens? (String.join ([.placeholder false key].map
      (Template.partPattern r.uriParameters))).toList =
        some (.plain '(' :: (us ++ [.plain ')'])) := by
    have hpart : Template.partPattern r.uriParameters (.placeholder false key) =
        "(" ++ Template.withoutAnchors pattern ++ ")" := by
      simp [Template.partPattern, h.declared, Parameter.matchPattern_of_pattern hpattern hne]
    rw [List.map_singleton, hpart, String.join_cons, String.join_nil, String.append_empty,
      String.toList_append, String.toList_append]
    exact tokens?_append (tokens?_append (a := ['(']) rfl htokens) rfl
  obtain ⟨nodes, htakes, houter⟩ := read_behind_stem htokens hinner
    (Template.tokens?_literals hplaceholder (stem ++ "/").toList)
  have huri : Pattern.read r.uriPattern =
      .ok (sequence (anchored (nodes ++ [.group 1 (inner.shift 1)]))) := by
    rw [Resource.uriPattern, h.ofUri]
    exact houter
  refine ⟨_, huri, fun s hquery hline hlooks hplaces => ?_⟩
  have hquery' : '?' ∉ (stem ++ "/" ++ s).toList := by
    rw [String.toList_append, List.mem_append]
    exact not_or.2 ⟨h.query, hquery⟩
  rw [Resource.matchesUri, patternOf_eq_ok_iff.2 huri, withoutQuery_of_not_mem hquery',
    ← matchesStart_behind_stem (endsOutsideWord_slash stem) htakes hlooks hplaces hline]
  rfl

/-- A letter that is written twice. -/
def doubledLetter : Parameter :=
  { Api.bareParameter "p" "string" none with pattern := some "^(?P<letter>[ab])(?P=letter)$" }

/-- What stands below a letter that is written twice. -/
def byDoubledLetter : Resource :=
  Api.bareResource "/x/\x7bp\x7d" [("p", doubledLetter)]

/-- A pattern that refers to its group by name means the same in the pattern of the resource. -/
theorem matchesUri_spliced_doubled : byDoubledLetter.matchesUri "/x/aa" = .ok true ∧
    byDoubledLetter.matchesUri "/x/ab" = .ok false := by
  have hends : byDoubledLetter.EndsIn ("/x" ++ "/") "p" doubledLetter :=
    ⟨rfl, rfl, ⟨by decide, by decide⟩, by decide, by decide, by decide⟩
  have hread : ((Pattern.read "^(?P<letter>[ab])(?P=letter)$").toOption.isSome) = true := by
    decide +kernel
  obtain ⟨node, hnode⟩ := Option.isSome_iff_exists.1 hread
  obtain ⟨hspliced, hmatching⟩ :=
    hends.matchesUri_spliced rfl (by decide) (Except.eq_ok_of_toOption hnode)
  obtain ⟨inner, hinner, hgroup⟩ := hspliced (by decide)
  obtain ⟨outer, -, hmatches⟩ := hmatching inner hgroup
  have hfacts : (Pattern.read (unanchored "^(?P<letter>[ab])(?P=letter)$")).toOption.map
      (fun n => (n.looks, n.places.length, n.matchesAll "aa", n.matchesAll "ab")) =
        some (false, 0, true, false) := by decide +kernel
  rw [hinner] at hfacts
  simp only [Except.toOption, Option.map_some, Option.some.injEq, Prod.mk.injEq] at hfacts
  obtain ⟨hlooks, hplaces, haa, hab⟩ := hfacts
  have hnone : ∀ (s : String), ∀ q ∈ inner.places, q.IsPortable s.toList := fun s q hq => by
    rw [List.eq_nil_of_length_eq_zero hplaces] at hq
    exact absurd hq List.not_mem_nil
  exact ⟨haa ▸ hmatches "aa" (by decide) (by decide) hlooks (hnone _),
    hab ▸ hmatches "ab" (by decide) (by decide) hlooks (hnone _)⟩

def dollarParameter : Parameter :=
  { Api.bareParameter "p" "string" none with pattern := some "a\\$" }

def byDollar : Resource :=
  Api.bareResource "/x/\x7bp\x7d" [("p", dollarParameter)]

/-- A sign behind a backslash is taken for an anchor, and without it the pattern of the resource
does not compile. -/
theorem not_always_spliced :
    ¬ ∀ (r : Resource) (p : Parameter) (pattern : String) (node : Node) (s : String),
      r.EndsIn "/x/" "p" p → p.pattern = some pattern → pattern ≠ "" →
      Pattern.read pattern = .ok node → node.looks = false →
      '/' ∉ s.toList → '?' ∉ s.toList → '\n' ∉ s.toList →
        ∃ inner outer, Pattern.read (unanchored pattern) = .ok inner ∧
          Pattern.read r.uriPattern = .ok outer ∧
            (r.matchesUri ("/x/" ++ s) = .ok true ↔ inner.matchesAll s = true) := by
  intro hclaim
  have hends : byDollar.EndsIn "/x/" "p" dollarParameter :=
    ⟨rfl, rfl, ⟨by decide, by decide⟩, by decide, by decide, by decide⟩
  have hread : (Pattern.read "a\\$").toOption.map Node.looks = some false := by decide
  obtain ⟨node, hnode, hlooks⟩ := Option.map_eq_some_iff.1 hread
  obtain ⟨inner, outer, -, houter, -⟩ := hclaim byDollar dollarParameter "a\\$" node "a$" hends rfl
    (by decide) (Except.eq_ok_of_toOption hnode) hlooks (by decide) (by decide) (by decide)
  have hrefused : (Pattern.read byDollar.uriPattern).toOption.isSome = false := by decide +kernel
  rw [houter] at hrefused
  cases hrefused

end Raml
