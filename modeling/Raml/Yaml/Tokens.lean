import Raml.Yaml.Scalar.Block
import Raml.Yaml.Scalar.Plain
import Raml.Yaml.Scalar.Quoted
import Raml.Yaml.Token

/-! # The tokens of a text

A text is cut into tokens from left to right. A key is only known by the colon
after it, so every place where a key may start is remembered, and its token is
put in there when the colon comes. A key that is not a block of its own has to
end on its line and within 1024 characters.
-/

namespace Raml.Yaml

structure Candidate where
  /-- How many tokens come before it. -/
  number : Nat
  /-- Whether it has to turn out to be a key. -/
  isRequired : Bool
  line : Nat
  column : Nat
  index : Nat

/-- A text in the middle of being cut into tokens. -/
structure Scan where
  rest : List Spot
  /-- How many brackets are open. -/
  depth : Nat
  /-- The columns of the open blocks, the innermost first. -/
  indents : List Nat
  /-- Whether a key may start here. -/
  allowsKey : Bool
  /-- The candidates by the number of brackets around them. -/
  candidates : Table Nat Candidate
  /-- The tokens so far, the last one first. -/
  tokens : List Token
  count : Nat

namespace Scan

def ofText (s : String) : Scan :=
  ⟨Spot.ofText s, 0, [], true, [], [], 0⟩

/-- Whether brackets are open, so that indentation does not count. -/
def inFlow (s : Scan) : Bool :=
  s.depth != 0

/-- The column of the innermost block, -1 outside of all. -/
def indent (s : Scan) : Int :=
  match s.indents with
  | [] => -1
  | n :: _ => n

def push (s : Scan) (t : Token) : Scan :=
  { s with tokens := t :: s.tokens, count := s.count + 1 }

def pushTo (s : Scan) (t : Token) (rest : List Spot) : Scan :=
  { s.push t with rest }

def pushOver (s : Scan) (t : Token) (n : Nat) : Scan :=
  s.pushTo t (s.rest.drop n)

/-! ## Candidates for keys -/

/-- Whether a candidate can no longer be a key. -/
def isStale (ts : List Spot) (c : Candidate) : Bool :=
  match ts with
  | [] => true
  | s :: _ => c.line != s.line || 1024 < s.index - c.index

/-- Without the candidates that a condition holds for; none of them may be required. -/
def dropWhere (s : Scan) (f : Nat → Candidate → Bool) : Except Fault Scan :=
  if s.candidates.any fun e => f e.1 e.2 && e.2.isRequired then .error .yaml
  else .ok { s with candidates := s.candidates.filter fun e => !f e.1 e.2 }

/-- Without the candidates that can no longer be keys. -/
def dropStale (s : Scan) : Except Fault Scan :=
  s.dropWhere fun _ c => isStale s.rest c

def dropCandidate (s : Scan) : Except Fault Scan :=
  s.dropWhere fun depth _ => depth == s.depth

/-- With a candidate here, if a key may start here. -/
def mark (s : Scan) : Except Fault Scan :=
  if s.allowsKey then do
    let s ← s.dropCandidate
    match s.rest with
    | [] => .ok s
    | t :: _ =>
        let isRequired := !s.inFlow && s.indent == t.column
        .ok { s with candidates :=
          (s.depth, ⟨s.count, isRequired, t.line, t.column, t.index⟩) :: s.candidates }
  else .ok s

def insertAt (s : Scan) (number : Nat) (ts : List Token) : Scan :=
  let after := s.count - number
  { s with
    tokens := s.tokens.take after ++ ts.reverse ++ s.tokens.drop after
    count := s.count + ts.length }

/-- The tokens that do not wait for a candidate to be settled, in order. -/
def settled (s : Scan) : List Token :=
  let first := s.candidates.foldl (fun n e => min n e.2.number) s.count
  (s.tokens.drop (s.count - first)).reverse

/-! ## Blocks -/

def closeBlocks (s : Scan) (column : Int) : Scan :=
  if s.inFlow then s
  else
    let closed := s.indents.takeWhile fun n : Nat => column < n
    { s with
      indents := s.indents.drop closed.length
      tokens := closed.map (fun _ => .blockEnd) ++ s.tokens
      count := s.count + closed.length }

def openBlock (s : Scan) (column : Nat) (start : Token) : Scan :=
  if s.inFlow || (column : Int) ≤ s.indent then s
  else { s.push start with indents := column :: s.indents }

/-! ## Tokens -/

def skipBlank (inComment : Bool) : List Spot → Bool × List Spot
  | [] => (false, [])
  | s :: rest =>
      if isBreak s.char then (true, (skipBlank false rest).2)
      else if s.char = endMark then (false, s :: rest)
      else if inComment then skipBlank true rest
      else if s.char = ' ' then skipBlank false rest
      else if s.char = '#' then skipBlank true rest
      else (false, s :: rest)

/-- Up to the next token. A key may start on a new line outside of brackets. -/
def toNext (s : Scan) : Scan :=
  let rest := match s.rest with
    | t :: ts => if t.index = 0 && t.char.toNat = 0xfeff then ts else s.rest
    | [] => []
  let (isBroken, rest) := skipBlank false rest
  { s with rest, allowsKey := s.allowsKey || (isBroken && !s.inFlow) }

def readEnd (s : Scan) : Except Fault Scan := do
  let s ← (s.closeBlocks (-1)).dropCandidate
  .ok { s.push .finish with allowsKey := false, candidates := [] }

def scanDirective (s : Scan) : Except Fault Scan := do
  let s ← (s.closeBlocks (-1)).dropCandidate
  let (t, rest) ← Token.readDirective s.rest
  .ok { s.pushTo t rest with allowsKey := false }

def scanMarker (s : Scan) (t : Token) : Except Fault Scan := do
  let s ← (s.closeBlocks (-1)).dropCandidate
  .ok { s.pushOver t 3 with allowsKey := false }

def scanOpening (s : Scan) (t : Token) : Except Fault Scan := do
  let s ← s.mark
  .ok { s.pushOver t 1 with allowsKey := true, depth := s.depth + 1 }

def scanClosing (s : Scan) (t : Token) : Except Fault Scan := do
  let s ← s.dropCandidate
  .ok { s.pushOver t 1 with allowsKey := false, depth := s.depth - 1 }

def scanComma (s : Scan) : Except Fault Scan := do
  let s ← s.dropCandidate
  .ok { s.pushOver .flowEntry 1 with allowsKey := true }

def scanDash (s : Scan) : Except Fault Scan := do
  if !s.inFlow && !s.allowsKey then .error .yaml
  else do
    let s ← (s.openBlock (column s.rest) .blockSequenceStart).dropCandidate
    .ok { s.pushOver .blockEntry 1 with allowsKey := true }

/-- The question mark before a key. -/
def scanKey (s : Scan) : Except Fault Scan := do
  if !s.inFlow && !s.allowsKey then .error .yaml
  else do
    let s ← (s.openBlock (column s.rest) .blockMappingStart).dropCandidate
    .ok { s.pushOver .key 1 with allowsKey := !s.inFlow }

def settle (s : Scan) (c : Candidate) : Scan :=
  let s := { s with candidates := s.candidates.filter fun e => e.1 != s.depth }
  let s :=
    if s.inFlow || (c.column : Int) ≤ s.indent then s.insertAt c.number [.key]
    else { s.insertAt c.number [.blockMappingStart, .key] with indents := c.column :: s.indents }
  { s.pushOver .value 1 with allowsKey := false }

def scanColon (s : Scan) : Except Fault Scan := do
  match s.candidates.get? s.depth with
  | some c => .ok (s.settle c)
  | none =>
      if !s.inFlow && !s.allowsKey then .error .yaml
      else do
        let s := s.openBlock (column s.rest) .blockMappingStart
        .ok { s.pushOver .value 1 with allowsKey := !s.inFlow }

/-- A token that may start a key, and after which none may start. -/
def scanNode (s : Scan) (read : List Spot → Except Fault (Token × List Spot)) :
    Except Fault Scan := do
  let s ← s.mark
  let (t, rest) ← read s.rest
  .ok { s.pushTo t rest with allowsKey := false }

def scanBlockScalar (s : Scan) (isFolded : Bool) : Except Fault Scan := do
  let s ← s.dropCandidate
  let (text, rest) ← Block.read isFolded s.indent s.rest
  .ok { s.pushTo (.scalar (String.ofList text) false) rest with allowsKey := true }

def scanQuoted (s : Scan) (quote : Quoted.Quote) : Except Fault Scan :=
  s.scanNode fun ts =>
    (Quoted.read quote ts).map fun r => (.scalar (String.ofList r.1) false, r.2)

/-- A plain scalar. A key may start after it if a line break follows it. -/
def scanPlain (s : Scan) : Except Fault Scan := do
  let s ← s.mark
  let (text, isBroken, rest) := Plain.read s.inFlow (s.indent + 1) s.rest
  .ok { s.pushTo (.scalar (String.ofList text) true) rest with allowsKey := isBroken }

def scanToken (s : Scan) : Except Fault Scan :=
  let c := next s.rest
  let after := nextAt 1 s.rest
  let atStart := column s.rest == 0
  if c = endMark then s.readEnd
  else if c = '%' && atStart then s.scanDirective
  else if c = '-' && atStart && isDocumentMarker s.rest then s.scanMarker .documentStart
  else if c = '.' && atStart && isDocumentMarker s.rest then s.scanMarker .documentEnd
  else if c = '[' then s.scanOpening .flowSequenceStart
  else if c = '\x7b' then s.scanOpening .flowMappingStart
  else if c = ']' then s.scanClosing .flowSequenceEnd
  else if c = '\x7d' then s.scanClosing .flowMappingEnd
  else if c = ',' then s.scanComma
  else if c = '-' && endsIndicator after then s.scanDash
  else if c = '?' && (s.inFlow || endsIndicator after) then s.scanKey
  else if c = ':' && (s.inFlow || endsIndicator after) then s.scanColon
  else if c = '*' then
    s.scanNode fun ts => (Token.anchorName ts).map fun r => (.alias r.1, r.2)
  else if c = '&' then
    s.scanNode fun ts => (Token.anchorName ts).map fun r => (.anchor r.1, r.2)
  else if c = '!' then s.scanNode Token.readTag
  else if c = '|' && !s.inFlow then s.scanBlockScalar false
  else if c = '>' && !s.inFlow then s.scanBlockScalar true
  else if c = '\'' then s.scanQuoted .single
  else if c = '"' then s.scanQuoted .double
  else if Plain.startsWith s.inFlow c after then s.scanPlain
  else .error .yaml

def step (s : Scan) : Except Fault Scan := do
  let s ← s.toNext.dropStale
  (s.closeBlocks (column s.rest)).scanToken

def isFinished (s : Scan) : Bool :=
  match s.tokens with
  | .finish :: _ => true
  | _ => false

/-- The tokens of the rest of a text. Where it cannot be read on, only those tokens count that are
settled by then. -/
def run : Nat → Scan → List Token
  | 0, s => s.settled ++ [.broken .yaml]
  | fuel + 1, s =>
      match s.dropStale with
      | .error f => s.settled ++ [.broken f]
      | .ok s =>
          match s.step with
          | .error f => s.settled ++ [.broken f]
          | .ok s => if s.isFinished then s.tokens.reverse else run fuel s

end Scan

/-- The tokens of a text. Every step but the last reads at least one character. -/
def Token.ofText (s : String) : List Token :=
  let start := Scan.ofText s
  start.run (start.rest.length + 1)

end Raml.Yaml
