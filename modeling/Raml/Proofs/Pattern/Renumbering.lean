import Raml.Pattern.Matcher
import Raml.Pattern.Reader

/-! # Expressions inside others

An expression that stands inside another has its groups numbered from a later number on, and runs
where a text stands in front already. It matches the same texts there if it does not look around,
and if no place in it is the start of the text. A place between words is the same in both, since
what stands in front ends in no word character; only of the empty text it is said that it has no
such place.
-/

namespace Raml

namespace Pattern

/-! ## Later numbers -/

/-- A part with all groups numbered later by `k`. -/
def Node.shift (k : Nat) : Node → Node
  | .seq a b => .seq (a.shift k) (b.shift k)
  | .alt a b => .alt (a.shift k) (b.shift k)
  | .rounds least most preference body => .rounds least most preference (body.shift k)
  | .group index body => .group (index + k) (body.shift k)
  | .back index rule => .back (index + k) rule
  | .ahead negated body => .ahead negated (body.shift k)
  | .behind negated width body => .behind negated width (body.shift k)
  | .atomic body => .atomic (body.shift k)
  | .ifGroup index yes no => .ifGroup (index + k) (yes.shift k) (no.shift k)
  | node => node

section Groups

variable {α : Type} (k : Nat)

def laterGroups (groups : List (Nat × α)) : List (Nat × α) :=
  groups.map fun g => (g.1 + k, g.2)

theorem lookup_laterGroups (groups : List (Nat × α)) (index : Nat) :
    (laterGroups k groups).lookup (index + k) = groups.lookup index := by
  induction groups with
  | nil => rfl
  | cons g rest ih =>
      have hkey : (index + k == g.1 + k) = (index == g.1) := by
        rw [Bool.eq_iff_iff]
        simp
      simp only [laterGroups, List.map_cons] at ih ⊢
      rw [List.lookup_cons, List.lookup_cons, hkey, ih]

theorem filter_laterGroups (groups : List (Nat × α)) (index : Nat) :
    (laterGroups k groups).filter (·.1 != index + k) =
      laterGroups k (groups.filter (·.1 != index)) := by
  rw [laterGroups, laterGroups, List.filter_map]
  congr 1
  refine List.filter_congr fun g _ => ?_
  simp only [Function.comp_apply]
  rw [Bool.eq_iff_iff]
  simp

end Groups

theorem Node.width_shift (k : Nat) (groups : List (Nat × Width)) (node : Node) :
    (node.shift k).width (laterGroups k groups) = node.width groups := by
  induction node with
  | back index rule =>
      show (List.lookup (index + k) (laterGroups k groups)).getD (.exactly 0) = _
      rw [lookup_laterGroups]
      rfl
  | _ => simp_all [Node.shift, Node.width]

/-! ## Cursors behind a text -/

section Inside

variable (lead : List Char) (k : Nat)

/-- The cursor with a text in front of what it has before it, nearest first, and with later
groups. -/
def Cursor.inside (s : Cursor) : Cursor where
  position := s.position + lead.length
  before := s.before ++ lead
  rest := s.rest
  groups := laterGroups k s.groups

theorem Cursor.inside_record (s : Cursor) (index : Nat) (text : List Char) :
    (s.inside lead k).record (index + k) text = (s.record index text).inside lead k := by
  simp only [Cursor.record, Cursor.inside]
  rw [filter_laterGroups]
  rfl

theorem Cursor.inside_since (s start : Cursor) :
    (s.inside lead k).since (start.inside lead k) = s.since start := by
  simp only [Cursor.since, Cursor.inside, Nat.add_sub_add_right]

theorem Cursor.next?_inside (s : Cursor) :
    (s.inside lead k).next? = s.next?.map fun p => (p.1, p.2.inside lead k) := by
  simp only [Cursor.next?, Cursor.inside]
  cases s.rest with
  | nil => rfl
  | cons c rest => simp [Nat.add_right_comm]

def Cursor.IsIn (text : List Char) (s : Cursor) : Prop := s.before.reverse ++ s.rest = text

theorem Cursor.isIn_start (text : List Char) : (Cursor.start text).IsIn text := rfl

theorem Cursor.IsIn.next {text : List Char} {s s' : Cursor} {c : Char} (hs : s.IsIn text)
    (h : s.next? = some (c, s')) : s'.IsIn text := by
  unfold Cursor.next? at h
  cases hrest : s.rest with
  | nil => simp [hrest] at h
  | cons d rest =>
      simp only [hrest, Option.some.injEq, Prod.mk.injEq] at h
      obtain ⟨-, rfl⟩ := h
      rw [Cursor.IsIn, hrest] at hs
      simpa [Cursor.IsIn] using hs

/-! ## Runners behind a text -/

variable (text : List Char)

/-- Whether a continuation behind a text does the same as another without it, up to what becomes of
its result. -/
def Follows (result : Cursor → Cursor) (follow follow' : Continuation) : Prop :=
  ∀ s : Cursor, s.IsIn text → follow' (s.inside lead k) = (follow s).map result

structure Mirrors (run run' : Runner) : Prop where
  /-- What a runner leads to comes from a cursor in the same text. -/
  reaches {s t : Cursor} {follow : Continuation} : s.IsIn text → run s follow = some t →
    ∃ s' : Cursor, s'.IsIn text ∧ follow s' = some t
  same {result : Cursor → Cursor} {s : Cursor} {follow follow' : Continuation} : s.IsIn text →
    Follows lead k text result follow follow' →
      run' (s.inside lead k) follow' = (run s follow).map result

variable {lead k text}

theorem follows_some : Follows lead k text (Cursor.inside lead k) some some := fun _ _ => rfl

section Rules

variable {run run' : Runner} {other other' : Runner} {result : Cursor → Cursor}
  {follow follow' : Continuation}

theorem Mirrors.follows (h : Mirrors lead k text run run')
    (hfollow : Follows lead k text result follow follow') :
    Follows lead k text result (fun s => run s follow) fun s => run' s follow' :=
  fun _ hs => h.same hs hfollow

theorem mirrors_nothing :
    Mirrors lead k text (fun s follow => follow s) fun s follow => follow s where
  reaches hs hrun := ⟨_, hs, hrun⟩
  same hs hfollow := hfollow _ hs

theorem Mirrors.then (h : Mirrors lead k text run run') (h' : Mirrors lead k text other other') :
    Mirrors lead k text (fun s follow => run s fun t => other t follow)
      fun s follow => run' s fun t => other' t follow where
  reaches hs hrun := by
    obtain ⟨s', hs', hother⟩ := h.reaches hs hrun
    exact h'.reaches hs' hother
  same hs hfollow := h.same hs (h'.follows hfollow)

theorem Mirrors.or (h : Mirrors lead k text run run') (h' : Mirrors lead k text other other') :
    Mirrors lead k text (fun s follow => (run s follow).or (other s follow))
      fun s follow => (run' s follow).or (other' s follow) where
  reaches hs hrun := by
    rcases Option.or_eq_some_iff.1 hrun with hfirst | ⟨-, hsecond⟩
    · exact h.reaches hs hfirst
    · exact h'.reaches hs hsecond
  same {result s follow follow'} hs hfollow := by
    rw [h.same hs hfollow, h'.same hs hfollow]
    cases run s follow <;> rfl

theorem mirrors_runChar (test : Char → Bool) :
    Mirrors lead k text (runChar test) (runChar test) where
  reaches {s t follow} hs hrun := by
    unfold runChar at hrun
    cases hnext : s.next? with
    | none => simp [hnext] at hrun
    | some p =>
        simp only [hnext] at hrun
        split at hrun
        · exact ⟨p.2, hs.next hnext, hrun⟩
        · cases hrun
  same {result s follow follow'} hs hfollow := by
    unfold runChar
    rw [Cursor.next?_inside]
    cases hnext : s.next? with
    | none => rfl
    | some p =>
        simp only [Option.map_some]
        split
        · exact hfollow _ (hs.next hnext)
        · rfl

theorem mirrors_runText (agree : Char → Char → Bool) (cs : List Char) :
    Mirrors lead k text (runText agree cs) (runText agree cs) := by
  induction cs with
  | nil => exact mirrors_nothing
  | cons c cs ih => exact (mirrors_runChar (agree c)).then ih

theorem Mirrors.times (h : Mirrors lead k text run run') (n : Nat) :
    Mirrors lead k text (runTimes run n) (runTimes run' n) := by
  induction n with
  | zero => exact mirrors_nothing
  | succ n ih => exact h.then ih

theorem mayRepeat_inside (left last : Option Nat) (s : Cursor) :
    mayRepeat left (last.map (· + lead.length)) (s.inside lead k) = mayRepeat left last s := by
  cases last with
  | none => rfl
  | some p =>
      have hsame : (some (p + lead.length) != some (s.position + lead.length)) =
          (some p != some s.position) := by
        rw [Bool.eq_iff_iff]
        simp
      simp only [mayRepeat, Option.map_some, Cursor.inside, hsame]

/-- Further rounds; where the last one started is behind the text as well. -/
theorem Mirrors.more (h : Mirrors lead k text run run') (preference : Preference) (fuel : Nat)
    (left last : Option Nat) :
    Mirrors lead k text (runMore run preference fuel left last)
      (runMore run' preference fuel left (last.map (· + lead.length))) := by
  induction fuel generalizing left last with
  | zero => exact mirrors_nothing
  | succ fuel ih =>
      -- one more round, where the preference allows for it, or none
      have hround : Mirrors lead k text
          (fun s follow => if mayRepeat left last s then
            run s fun t => runMore run preference fuel (left.map (· - 1)) (some s.position) t follow
          else none)
          (fun s follow => if mayRepeat left (last.map (· + lead.length)) s then
            run' s fun t =>
              runMore run' preference fuel (left.map (· - 1)) (some s.position) t follow
          else none) := by
        constructor
        · intro s t follow hs hrun
          split at hrun
          · obtain ⟨s', hs', hmore⟩ := h.reaches hs hrun
            exact (ih _ _).reaches hs' hmore
          · cases hrun
        · intro result s follow follow' hs hfollow
          simp only [mayRepeat_inside]
          split
          · exact h.same hs ((ih (left.map (· - 1)) (some s.position)).follows hfollow)
          · rfl
      cases preference with
      | fewest => exact mirrors_nothing.or hround
      | most => exact hround.or mirrors_nothing
      | mostOnly => exact hround.or mirrors_nothing

theorem Mirrors.atomic (h : Mirrors lead k text run run') :
    Mirrors lead k text (runAtomic run) (runAtomic run') where
  reaches {s t follow} hs hrun := by
    obtain ⟨s', hfirst, hfollow⟩ := Option.bind_eq_some_iff.1 hrun
    obtain ⟨s'', hs'', hsame⟩ := h.reaches hs hfirst
    obtain rfl := Option.some.inj hsame
    exact ⟨s'', hs'', hfollow⟩
  same {result s follow follow'} hs hfollow := by
    have hfirst := h.same hs (follows_some : Follows lead k text (Cursor.inside lead k) some some)
    rw [runAtomic, hfirst, runAtomic]
    cases hrun : run s some with
    | none => rfl
    | some s' =>
        obtain ⟨s'', hs'', hsame⟩ := h.reaches hs hrun
        obtain rfl := Option.some.inj hsame
        exact hfollow s'' hs''

theorem Mirrors.rounds (h : Mirrors lead k text run run') (least : Nat) (most : Option Nat)
    (preference : Preference) :
    Mirrors lead k text (runRounds run least most preference)
      (runRounds run' least most preference) := by
  have hrun : ∀ {run run' : Runner}, Mirrors lead k text run run' → Mirrors lead k text
      (fun s follow => runTimes run least s fun t =>
        runMore run preference (t.rest.length + 2) (most.map (· - least)) none t follow)
      (fun s follow => runTimes run' least s fun t =>
        runMore run' preference (t.rest.length + 2) (most.map (· - least)) none t follow) := by
    intro run run' h
    refine (h.times least).then ⟨fun hs hmore => ?_, fun hs hfollow => ?_⟩
    · exact (h.more preference _ _ none).reaches hs hmore
    · exact (h.more preference _ _ none).same hs hfollow
  unfold runRounds
  cases preference with
  | mostOnly => exact (hrun h.atomic).atomic
  | most => exact hrun h
  | fewest => exact hrun h

end Rules

/-! ## Parts behind a text -/

/-- Whether a part looks at what is behind or in front without taking it. -/
def Node.looks : Node → Bool
  | .ahead _ _ | .behind _ _ _ => true
  | .seq a b | .alt a b | .ifGroup _ a b => a.looks || b.looks
  | .rounds _ _ _ body | .group _ body | .atomic body => body.looks
  | _ => false

def Node.places : Node → List Place
  | .place p => [p]
  | .seq a b | .alt a b | .ifGroup _ a b => a.places ++ b.places
  | .rounds _ _ _ body | .group _ body | .atomic body | .ahead _ body | .behind _ _ body =>
      body.places
  | _ => []

/-- Whether a place in a text is the same behind another that ends in no word character. The last is
so unless the text is empty. -/
def Place.IsPortable (text : List Char) : Place → Prop
  | .start _ | .textStart => False
  | .stop _ | .textStop | .wordEdge _ false => True
  | .wordEdge _ true => text ≠ []

/-- Whether a text, nearest character first, ends in a character that is no word character. -/
def EndsOutsideWord (lead : List Char) : Prop :=
  ∃ c rest, lead = c :: rest ∧ ∀ ascii, (CharClass.word ascii).holds c = false

theorem atWordEdge_inside (hlead : EndsOutsideWord lead) (ascii : Bool) (s : Cursor) :
    atWordEdge ascii (s.inside lead k) = atWordEdge ascii s := by
  obtain ⟨c, rest, rfl, hword⟩ := hlead
  unfold atWordEdge Cursor.inside
  cases s.before with
  | nil => simp [hword ascii]
  | cons d before => rfl

theorem isAt_inside (hlead : EndsOutsideWord lead) {p : Place} (hp : p.IsPortable text)
    {s : Cursor} (hs : s.IsIn text) : isAt p (s.inside lead k) = isAt p s := by
  have hne : lead ≠ [] := by
    obtain ⟨c, rest, rfl, -⟩ := hlead
    exact List.cons_ne_nil c rest
  cases p with
  | start eachLine => exact hp.elim
  | textStart => exact hp.elim
  | stop eachLine => rfl
  | textStop => rfl
  | wordEdge ascii negated =>
      have hedge := atWordEdge_inside (k := k) hlead ascii s
      simp only [isAt, hedge]
      have hfront : (s.inside lead k).before.isEmpty = false := by
        simp [Cursor.inside, hne]
      rw [hfront]
      cases negated with
      | true =>
          cases hbefore : s.before with
          | cons d before => simp
          | nil =>
              have hrest : s.rest ≠ [] := fun hrest => hp (by rw [← hs, hbefore, hrest]; rfl)
              simp [hrest]
      | false =>
          cases hbefore : s.before with
          | cons d before => simp
          | nil =>
              cases hrest : s.rest with
              | cons d rest => simp
              | nil => simp [atWordEdge, hbefore, hrest]

/-- A part that looks at nothing and requires no start runs the same behind a text, with its groups
numbered later. -/
theorem Node.mirrors_shift (hlead : EndsOutsideWord lead) (node : Node)
    (hlooks : node.looks = false) (hplaces : ∀ p ∈ node.places, p.IsPortable text) :
    Mirrors lead k text node.run (node.shift k).run := by
  -- what is true of the parts carries over to the whole; only places and groups look at the cursor
  induction node with
  | empty => exact mirrors_nothing
  | code c rule => exact mirrors_runChar _
  | any dotAll => exact mirrors_runChar _
  | set negated items rule => exact mirrors_runChar _
  | place p =>
      have hp := hplaces p (List.mem_singleton_self p)
      constructor
      · intro s t follow hs hrun
        simp only [Node.run] at hrun
        split at hrun
        · exact ⟨s, hs, hrun⟩
        · cases hrun
      · intro result s follow follow' hs hfollow
        simp only [Node.shift, Node.run, isAt_inside hlead hp hs]
        split
        · exact hfollow s hs
        · rfl
  | seq a b iha ihb =>
      obtain ⟨ha, hb⟩ := Bool.or_eq_false_iff.1 hlooks
      exact (iha ha fun p hp => hplaces p (List.mem_append_left _ hp)).then
        (ihb hb fun p hp => hplaces p (List.mem_append_right _ hp))
  | alt a b iha ihb =>
      obtain ⟨ha, hb⟩ := Bool.or_eq_false_iff.1 hlooks
      exact (iha ha fun p hp => hplaces p (List.mem_append_left _ hp)).or
        (ihb hb fun p hp => hplaces p (List.mem_append_right _ hp))
  | rounds least most preference body ih => exact (ih hlooks hplaces).rounds least most preference
  | group index body ih =>
      have hbody := ih hlooks hplaces
      constructor
      · intro s t follow hs hrun
        obtain ⟨s', hs', hfollow⟩ := hbody.reaches hs hrun
        exact ⟨s'.record index (s'.since s), hs', hfollow⟩
      · intro result s follow follow' hs hfollow
        refine hbody.same hs fun s' hs' => ?_
        rw [Cursor.inside_since, Cursor.inside_record]
        exact hfollow _ hs'
  | back index rule =>
      constructor
      · intro s t follow hs hrun
        simp only [Node.run] at hrun
        split at hrun
        · next captured _ =>
            have htext : Mirrors lead k text (runText rule.agree captured)
              (runText rule.agree captured) := mirrors_runText _ _
            exact htext.reaches hs hrun
        · cases hrun
      · intro result s follow follow' hs hfollow
        -- a group with its later number holds the same text
        have hlookup : (s.inside lead k).groups.lookup (index + k) = s.groups.lookup index :=
          lookup_laterGroups k s.groups index
        simp only [Node.shift, Node.run, hlookup]
        cases s.groups.lookup index with
        | none => rfl
        | some text => exact (mirrors_runText _ _).same hs hfollow
  | ahead negated body ih => cases hlooks
  | behind negated width body ih => cases hlooks
  | atomic body ih => exact (ih hlooks hplaces).atomic
  | ifGroup index yes no ihyes ihno =>
      obtain ⟨hyes, hno⟩ := Bool.or_eq_false_iff.1 hlooks
      have hyes := ihyes hyes fun p hp => hplaces p (List.mem_append_left _ hp)
      have hno := ihno hno fun p hp => hplaces p (List.mem_append_right _ hp)
      constructor
      · intro s t follow hs hrun
        simp only [Node.run] at hrun
        split at hrun
        · exact hyes.reaches hs hrun
        · exact hno.reaches hs hrun
      · intro result s follow follow' hs hfollow
        have hlookup : (s.inside lead k).groups.lookup (index + k) = s.groups.lookup index :=
          lookup_laterGroups k s.groups index
        simp only [Node.shift, Node.run, hlookup]
        split
        · exact hyes.same hs hfollow
        · exact hno.same hs hfollow

end Inside

end Pattern

end Raml
