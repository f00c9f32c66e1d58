import Raml.Pattern.Basic

/-! # Matching

A part of an expression is run at a place of the text with a continuation for
what has to match after it. Ways to match are tried in order of preference and
the first that lets the continuation succeed is taken. A round that takes no
character is the last one of its repetition, which bounds the number of rounds.
-/

namespace Raml

namespace Pattern

/-- A place in a text: what is before it (nearest first), what is after it, and what the groups
matched so far. `position` counts the characters before. -/
structure Cursor where
  position : Nat
  before : List Char
  rest : List Char
  groups : List (Nat × List Char)

abbrev Continuation := Cursor → Option Cursor

abbrev Runner := Cursor → Continuation → Option Cursor

namespace Cursor

def start (cs : List Char) : Cursor := ⟨0, [], cs, []⟩

def next? (s : Cursor) : Option (Char × Cursor) :=
  match s.rest with
  | [] => none
  | c :: rest => some (c, { s with position := s.position + 1, before := c :: s.before, rest })

def back? (s : Cursor) (n : Nat) : Option Cursor :=
  if n ≤ s.position then
    some { s with
      position := s.position - n
      before := s.before.drop n
      rest := (s.before.take n).reverse ++ s.rest }
  else none

def since (s start : Cursor) : List Char :=
  start.rest.take (s.position - start.position)

def record (s : Cursor) (index : Nat) (text : List Char) : Cursor :=
  { s with groups := (index, text) :: s.groups.filter (·.1 != index) }

end Cursor

/-! ## Single parts -/

def runChar (test : Char → Bool) : Runner := fun s k =>
  match s.next? with
  | some (c, s') => if test c then k s' else none
  | none => none

/-- A run of given characters, each up to `agree`. -/
def runText (agree : Char → Char → Bool) : List Char → Runner
  | [], s, k => k s
  | c :: cs, s, k => runChar (agree c) s fun s' => runText agree cs s' k

def atWordEdge (ascii : Bool) (s : Cursor) : Bool :=
  let isWord (c : Option Char) : Bool := (c.map (CharClass.word ascii).holds).getD false
  isWord s.before.head? != isWord s.rest.head?

/-- Whether the cursor stands at a place. A text also stops before a line feed that ends it, and an
empty text has no place that is or is not the edge of a word. -/
def isAt (p : Place) (s : Cursor) : Bool :=
  match p with
  | .start eachLine => s.before.isEmpty || (eachLine && s.before.head? == some '\n')
  | .stop eachLine =>
      s.rest.isEmpty || s.rest == ['\n'] || (eachLine && s.rest.head? == some '\n')
  | .textStart => s.before.isEmpty
  | .textStop => s.rest.isEmpty
  | .wordEdge ascii negated =>
      !(s.before.isEmpty && s.rest.isEmpty) && atWordEdge ascii s != negated

/-! ## Repetition -/

/-- Exactly `n` rounds. -/
def runTimes (body : Runner) : Nat → Runner
  | 0, s, k => k s
  | n + 1, s, k => body s fun s' => runTimes body n s' k

/-- Whether another round may be tried: the limit is not reached and the last round took
something. -/
def mayRepeat (left : Option Nat) (last : Option Nat) (s : Cursor) : Bool :=
  left != some 0 && last != some s.position

/-- Any further number of rounds. `last` is where the last one started; `fuel` exceeds the number
of characters left. -/
def runMore (body : Runner) (preference : Preference) :
    Nat → Option Nat → Option Nat → Runner
  | 0, _, _, s, k => k s
  | fuel + 1, left, last, s, k =>
      let round (_ : Unit) : Option Cursor :=
        if mayRepeat left last s then
          body s fun s' =>
            runMore body preference fuel (left.map (· - 1)) (some s.position) s' k
        else none
      match preference with
      | .fewest => (k s).or (round ())
      | _ => (round ()).or (k s)

/-- The first way in which a part matches, and no other. -/
def runAtomic (body : Runner) : Runner := fun s k =>
  (body s some).bind k

def runRounds (body : Runner) (least : Nat) (most : Option Nat) (preference : Preference) :
    Runner :=
  let run (body : Runner) : Runner := fun s k =>
    runTimes body least s fun s' =>
      runMore body preference (s'.rest.length + 2) (most.map (· - least)) none s' k
  match preference with
  | .mostOnly => runAtomic (run (runAtomic body))
  | _ => run body

/-! ## Whole expressions -/

def Node.run : Node → Runner
  | .empty, s, k => k s
  | .code c rule, s, k => runChar (hasCode c rule) s k
  | .any dotAll, s, k => runChar (fun c => dotAll || c != '\n') s k
  | .set negated items rule, s, k =>
      runChar (fun c => holdsAny items rule c != negated) s k
  | .place p, s, k => if isAt p s then k s else none
  | .seq a b, s, k => a.run s fun s' => b.run s' k
  | .alt a b, s, k => (a.run s k).or (b.run s k)
  | .rounds least most preference body, s, k => runRounds body.run least most preference s k
  | .group index body, s, k => body.run s fun s' => k (s'.record index (s'.since s))
  | .back index rule, s, k =>
      match s.groups.lookup index with
      | some text => runText rule.agree text s k
      | none => none
  | .ahead negated body, s, k =>
      match body.run s some with
      | some s' => if negated then none else k { s with groups := s'.groups }
      | none => if negated then k s else none
  | .behind negated width body, s, k =>
      match (s.back? width).bind fun b => body.run b some with
      | some s' => if negated then none else k { s with groups := s'.groups }
      | none => if negated then k s else none
  | .atomic body, s, k => runAtomic body.run s k
  | .ifGroup index yes no, s, k =>
      if (s.groups.lookup index).isSome then yes.run s k else no.run s k

def Node.matchesFrom (p : Node) (s : Cursor) : Bool :=
  (p.run s some).isSome

def Node.searchFrom (p : Node) : List Char → Cursor → Bool
  | [], s => p.matchesFrom s
  | c :: rest, s =>
      p.matchesFrom s ||
        p.searchFrom rest
          { s with position := s.position + 1, before := c :: s.before, rest := rest }

def Node.matchesStart (p : Node) (text : String) : Bool :=
  p.matchesFrom (.start text.toList)

def Node.search (p : Node) (text : String) : Bool :=
  p.searchFrom text.toList (.start text.toList)

end Pattern

end Raml
