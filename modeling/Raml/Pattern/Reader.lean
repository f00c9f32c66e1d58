import Raml.Number.Integer
import Raml.Pattern.Basic
import Raml.Text.Identifier

/-! # Reading regular expressions

An expression is first cut into tokens, a backslash with the character after it
being one. Tokens are then read into parts from left to right. Groups are
numbered by their opening parentheses; a group can be referred to once it is
closed. Flags are set for the whole expression at its start or for a group.
Characters that are named by an escape are left out: there is no table of names,
and an expression with such an escape is refused.
-/

namespace Raml

namespace Pattern

/-- Why an expression is refused. -/
inductive Problem
  | malformed
  /-- A number of rounds is too large. -/
  | tooLarge
  /-- The flags for ASCII and for all characters are both set for the whole expression. -/
  | clashingFlags
deriving DecidableEq

/-- A character as it stands, or one after a backslash. -/
inductive Token
  | plain (c : Char)
  | escaped (c : Char)
deriving DecidableEq

/-- The tokens of an expression, none if it ends in a backslash. -/
def tokens? : List Char → Option (List Token)
  | [] => some []
  | ['\\'] => none
  | '\\' :: c :: rest => (tokens? rest).map (.escaped c :: ·)
  | c :: rest => (tokens? rest).map (.plain c :: ·)

structure Flags where
  ignoreCase : Bool
  eachLine : Bool
  dotAll : Bool
  verbose : Bool
  ascii : Bool
  unicode : Bool

def Flags.none : Flags := ⟨false, false, false, false, false, false⟩

/-- Which letters stand for each other. -/
def Flags.rule (f : Flags) : CaseRule :=
  if !f.ignoreCase then .exact else if f.ascii then .asciiLetters else .allLetters

/-- The least and the greatest number of characters that a part takes; no greatest if it is
unbounded. -/
structure Width where
  least : Nat
  most : Option Nat
deriving DecidableEq

namespace Width

def exactly (n : Nat) : Width := ⟨n, some n⟩

def plus (a b : Width) : Width :=
  ⟨a.least + b.least, a.most.bind fun m => b.most.map (m + ·)⟩

def either (a b : Width) : Width :=
  ⟨min a.least b.least, a.most.bind fun m => b.most.map (max m ·)⟩

def times (least : Nat) (most : Option Nat) (w : Width) : Width :=
  ⟨w.least * least,
    match w.most, most with
    | some 0, _ => some 0
    | some m, some n => some (m * n)
    | _, _ => .none⟩

end Width

def Node.width (groups : List (Nat × Width)) : Node → Width
  | .empty | .place _ | .ahead _ _ | .behind _ _ _ => .exactly 0
  | .code _ _ | .any _ | .set _ _ _ => .exactly 1
  | .seq a b => (a.width groups).plus (b.width groups)
  | .alt a b => (a.width groups).either (b.width groups)
  | .rounds least most _ body => (body.width groups).times least most
  | .group _ body | .atomic body => body.width groups
  | .back index _ => (groups.lookup index).getD (.exactly 0)
  | .ifGroup _ yes no => (yes.width groups).either (no.width groups)

structure Progress where
  flags : Flags
  groupCount : Nat
  names : List (String × Nat)
  closed : List (Nat × Width)
  /-- The number of the first group opened inside the lookbehind being read. -/
  behindFrom : Option Nat
  /-- The groups that conditions name. -/
  conditions : List Nat

/-- The refusal of a malformed expression. -/
def refuse {α : Type} : Except Problem α := .error .malformed

/-! ## Escapes -/

/-- The digits of a given kind at the start of some tokens, at most `n`. -/
def takeDigits (isDigit : Char → Bool) : Nat → List Token → List Char × List Token
  | n + 1, .plain c :: rest =>
      if isDigit c then
        let (digits, left) := takeDigits isDigit n rest
        (c :: digits, left)
      else ([], .plain c :: rest)
  | _, ts => ([], ts)

def controlCode? : Char → Option Nat
  | 'a' => some 7
  | 'f' => some 12
  | 'n' => some 10
  | 'r' => some 13
  | 't' => some 9
  | 'v' => some 11
  | '\\' => some 92
  | _ => none

def class? (ascii : Bool) : Char → Option SetItem
  | 'd' => some (.inClass (.digit ascii) false)
  | 'D' => some (.inClass (.digit ascii) true)
  | 's' => some (.inClass (.space ascii) false)
  | 'S' => some (.inClass (.space ascii) true)
  | 'w' => some (.inClass (.word ascii) false)
  | 'W' => some (.inClass (.word ascii) true)
  | _ => none

def place? (ascii : Bool) : Char → Option Place
  | 'A' => some .textStart
  | 'Z' => some .textStop
  | 'b' => some (.wordEdge ascii false)
  | 'B' => some (.wordEdge ascii true)
  | _ => none

/-- How many hexadecimal digits follow a letter after a backslash. -/
def hexCount? : Char → Option Nat
  | 'x' => some 2
  | 'u' => some 4
  | 'U' => some 8
  | _ => none

/-- The code of an escape that is neither a class nor a place nor a reference. -/
def readCode (c : Char) (ts : List Token) : Except Problem (Nat × List Token) :=
  match hexCount? c with
  | some n =>
      let (digits, rest) := takeDigits Text.isHexDigit n ts
      let code := Text.numberOf 16 digits
      if digits.length = n && code < 0x110000 then .ok (code, rest) else refuse
  | none => if c.isAlphanum then refuse else .ok (c.toNat, ts)

def readSetEscape (ascii : Bool) (c : Char) (ts : List Token) :
    Except Problem (SetItem × List Token) :=
  if c = 'b' then .ok (.code 8, ts)
  else
    match controlCode? c with
    | some code => .ok (.code code, ts)
    | none =>
        match class? ascii c with
        | some item => .ok (item, ts)
        | none =>
            if Text.isOctalDigit c then
              let (digits, rest) := takeDigits Text.isOctalDigit 2 ts
              let code := Text.numberOf 8 (c :: digits)
              if code ≤ 0o377 then .ok (.code code, rest) else refuse
            else do
              let (code, rest) ← readCode c ts
              .ok (.code code, rest)

def reference (index : Nat) (pr : Progress) : Except Problem Node :=
  if (pr.closed.lookup index).isNone then refuse
  else
    match pr.behindFrom with
    | some first => if first ≤ index then refuse else .ok (.back index pr.flags.rule)
    | none => .ok (.back index pr.flags.rule)

def plainDigit? : List Token → Option Char
  | .plain c :: _ => if c.isDigit then some c else none
  | _ => none

/-- An escape that starts with a digit other than zero: an octal code of three digits, or else a
reference to a group by one or two digits. -/
def readNumbered (c : Char) (ts : List Token) (pr : Progress) :
    Except Problem (Node × List Token) := do
  match plainDigit? ts with
  | none =>
      let node ← reference (Text.numberOf 10 [c]) pr
      .ok (node, ts)
  | some d =>
      let rest := ts.drop 1
      match plainDigit? rest with
      | some e =>
          if Text.isOctalDigit c && Text.isOctalDigit d && Text.isOctalDigit e then
            let code := Text.numberOf 8 [c, d, e]
            if code ≤ 0o377 then .ok (.code code pr.flags.rule, rest.drop 1) else refuse
          else
            let node ← reference (Text.numberOf 10 [c, d]) pr
            .ok (node, rest)
      | none =>
          let node ← reference (Text.numberOf 10 [c, d]) pr
          .ok (node, rest)

def readEscape (c : Char) (ts : List Token) (pr : Progress) :
    Except Problem (Node × List Token) :=
  let ascii := pr.flags.ascii
  match class? ascii c with
  | some item => .ok (.set false [item] .exact, ts)
  | none =>
      match place? ascii c with
      | some p => .ok (.place p, ts)
      | none =>
          match controlCode? c with
          | some code => .ok (.code code pr.flags.rule, ts)
          | none =>
              if c = '0' then
                let (digits, rest) := takeDigits Text.isOctalDigit 2 ts
                .ok (.code (Text.numberOf 8 (c :: digits)) pr.flags.rule, rest)
              else if c.isDigit then readNumbered c ts pr
              else do
                let (code, rest) ← readCode c ts
                .ok (.code code pr.flags.rule, rest)

/-! ## Bracketed sets -/

def readSetItem (ascii : Bool) (t : Token) (ts : List Token) :
    Except Problem (SetItem × List Token) :=
  match t with
  | .plain c => .ok (.code c.toNat, ts)
  | .escaped c => readSetEscape ascii c ts

/-- The items of a set up to its closing bracket. A closing bracket that comes first is an item.
`fuel` exceeds the number of tokens. -/
def readSetItems (ascii : Bool) : Nat → List SetItem → List Token →
    Except Problem (List SetItem × List Token)
  | 0, _, _ => refuse
  | _, _, [] => refuse
  | fuel + 1, items, t :: ts =>
      if t = .plain ']' && !items.isEmpty then .ok (items, ts)
      else do
        let (first, ts) ← readSetItem ascii t ts
        match ts with
        | .plain '-' :: [] => refuse
        | .plain '-' :: .plain ']' :: ts => .ok (items ++ [first, .code '-'.toNat], ts)
        | .plain '-' :: u :: ts => do
            let (second, ts) ← readSetItem ascii u ts
            match first, second with
            | .code low, .code high =>
                if high < low then refuse
                else readSetItems ascii fuel (items ++ [.range low high]) ts
            | _, _ => refuse
        | ts => readSetItems ascii fuel (items ++ [first]) ts

def readSet (ts : List Token) (flags : Flags) : Except Problem (Node × List Token) := do
  let (negated, ts) := match ts with
    | .plain '^' :: rest => (true, rest)
    | _ => (false, ts)
  let (items, ts) ← readSetItems flags.ascii (ts.length + 1) [] ts
  .ok (.set negated items flags.rule, ts)

/-! ## Repetition -/

/-- From this number of rounds on a repetition is refused. -/
def roundLimit : Nat := 0xffffffff

/-- The bounds of a repetition in braces after the opening brace, `none` if the brace stands for
itself. -/
def readBraces (ts : List Token) :
    Except Problem (Option (Nat × Option Nat × List Token)) :=
  let (low, rest) := takeDigits Char.isDigit ts.length ts
  let comma := rest.head? = some (.plain ',')
  let (high, rest) :=
    if comma then takeDigits Char.isDigit rest.length (rest.drop 1) else (low, rest)
  if ts.head? = some (.plain '\x7d') then .ok none
  else
    match rest with
    | .plain '\x7d' :: rest =>
        let least := Text.numberOf 10 low
        let most := if high.isEmpty then none else some (Text.numberOf 10 high)
        if roundLimit ≤ least || (most.any fun m => roundLimit ≤ m) then .error .tooLarge
        else if most.any fun m => m < least then refuse
        else .ok (some (least, most, rest))
    | _ => .ok none

def readPreference : List Token → Preference × List Token
  | .plain '?' :: rest => (.fewest, rest)
  | .plain '+' :: rest => (.mostOnly, rest)
  | ts => (.most, ts)

def readBounds? (c : Char) (ts : List Token) :
    Except Problem (Option (Nat × Option Nat × List Token)) :=
  match c with
  | '?' => .ok (some (0, some 1, ts))
  | '*' => .ok (some (0, none, ts))
  | '+' => .ok (some (1, none, ts))
  | '\x7b' => readBraces ts
  | _ => .ok none

/-- Whether a part can be repeated: not a place, and not a repetition itself. -/
def isRepeatable : Node → Bool
  | .place _ | .rounds _ _ _ _ => false
  | _ => true

/-- The contents of a group without a number, which can always be repeated. -/
def wrapped (node : Node) : Node :=
  if isRepeatable node then node else .seq node .empty

/-! ## Flags -/

/-- The flags with one letter set or cleared, `none` for a letter that is no flag. -/
def setFlag? (f : Flags) (on : Bool) : Char → Option Flags
  | 'i' => some { f with ignoreCase := on }
  | 'm' => some { f with eachLine := on }
  | 's' => some { f with dotAll := on }
  | 'x' => some { f with verbose := on }
  | 'a' => some { f with ascii := on }
  | 'u' => some { f with unicode := on }
  -- a letter that changes nothing, and stands for the whole expression only
  | 't' => some f
  | _ => none

def takeLetters : List Token → List Char × List Token
  | .plain c :: rest =>
      if c = ')' || c = ':' || c = '-' then ([], .plain c :: rest)
      else
        let (letters, left) := takeLetters rest
        (c :: letters, left)
  | ts => ([], ts)

def setFlags? (f : Flags) (on : Bool) (letters : List Char) : Option Flags :=
  letters.foldlM (fun f c => setFlag? f on c) f

inductive FlagChange
  | whole (f : Flags)
  | forGroup (f : Flags)

def readFlags (ts : List Token) (whole local' : Flags) :
    Except Problem (FlagChange × List Token) :=
  let (on, rest) := takeLetters ts
  if on.contains 'a' && on.contains 'u' then refuse
  else
    match rest with
    | .plain ')' :: rest =>
        match setFlags? whole true on with
        | some f => if on.isEmpty then refuse else .ok (.whole f, rest)
        | none => refuse
    | .plain ':' :: rest =>
        if on.isEmpty || on.contains 't' then refuse
        else
          match setFlags? (retype local' on) true on with
          | some f => .ok (.forGroup f, rest)
          | none => refuse
    | .plain '-' :: rest =>
        let (off, rest) := takeLetters rest
        match rest with
        | .plain ':' :: rest =>
            if off.isEmpty || on.contains 't' ||
                off.any (fun c => "aut".contains c || on.contains c) then refuse
            else
              match (setFlags? (retype local' on) true on).bind fun f => setFlags? f false off with
              | some f => .ok (.forGroup f, rest)
              | none => refuse
        | _ => refuse
    | _ => refuse
where
  /-- Setting one of the flags for the kind of characters clears the other. -/
  retype (f : Flags) (letters : List Char) : Flags :=
    if letters.contains 'a' || letters.contains 'u' then { f with ascii := false, unicode := false }
    else f

/-! ## Groups -/

inductive Opening
  | capture (name : Option String)
  | plain
  | atomic
  | look (ahead negated : Bool)
  | condition (index : Nat)
  | flags (f : Flags)
  /-- A part that is complete: a comment or a reference by name. -/
  | done (node : Option Node)
  | whole (f : Flags)

def tokenText (ts : List Token) : List Char :=
  ts.flatMap fun t =>
    match t with
    | .plain c => [c]
    | .escaped c => ['\\', c]

def takeUntil? (c : Char) (ts : List Token) : Option (List Char × List Token) :=
  let name := ts.takeWhile (· ≠ .plain c)
  match ts.dropWhile (· ≠ .plain c) with
  | _ :: rest => if name.isEmpty then none else some (tokenText name, rest)
  | [] => none

def conditionGroup (name : List Char) (pr : Progress) : Except Problem Nat :=
  if Text.isIdentifier name then
    match pr.names.lookup (String.ofList name) with
    | some index => .ok index
    | none => refuse
  else
    match Number.intOfText? (String.ofList name) with
    | some (.ofNat (n + 1)) => if name.contains '.' then refuse else .ok (n + 1)
    | _ => refuse

/-- Whether a group may be used inside the lookbehind being read. -/
def usableBehind (index : Nat) (pr : Progress) : Bool :=
  match pr.behindFrom with
  | none => true
  | some first => (pr.closed.lookup index).isSome && index < first

def readOpening (ts : List Token) (pr : Progress) :
    Except Problem (Opening × List Token × Progress) :=
  match ts with
  | .plain '?' :: .plain 'P' :: .plain '<' :: ts =>
      match takeUntil? '>' ts with
      | some (name, ts) =>
          if Text.isIdentifier name then .ok (.capture (some (String.ofList name)), ts, pr)
          else refuse
      | none => refuse
  | .plain '?' :: .plain 'P' :: .plain '=' :: ts =>
      match takeUntil? ')' ts with
      | some (name, ts) =>
          match pr.names.lookup (String.ofList name) with
          | some index => do
              let node ← reference index pr
              .ok (.done (some node), ts, pr)
          | none => refuse
      | none => refuse
  | .plain '?' :: .plain ':' :: ts => .ok (.plain, ts, pr)
  | .plain '?' :: .plain '#' :: ts =>
      match ts.dropWhile (· ≠ .plain ')') with
      | _ :: ts => .ok (.done none, ts, pr)
      | [] => refuse
  | .plain '?' :: .plain '=' :: ts => .ok (.look true false, ts, pr)
  | .plain '?' :: .plain '!' :: ts => .ok (.look true true, ts, pr)
  | .plain '?' :: .plain '<' :: .plain '=' :: ts => .ok (.look false false, ts, pr)
  | .plain '?' :: .plain '<' :: .plain '!' :: ts => .ok (.look false true, ts, pr)
  | .plain '?' :: .plain '>' :: ts => .ok (.atomic, ts, pr)
  | .plain '?' :: .plain '(' :: ts =>
      match takeUntil? ')' ts with
      | some (name, ts) => do
          let index ← conditionGroup name pr
          if usableBehind index pr then
            .ok (.condition index, ts, { pr with conditions := index :: pr.conditions })
          else refuse
      | none => refuse
  | .plain '?' :: ts => do
      match ← readFlags ts pr.flags pr.flags with
      | (.whole f, ts) => .ok (.whole f, ts, pr)
      | (.forGroup f, ts) => .ok (.flags f, ts, pr)
  | ts => .ok (.capture none, ts, pr)

/-! ## Sequences and alternatives -/

def sequence : List Node → Node
  | [] => .empty
  | [a] => a
  | a :: rest => .seq a (sequence rest)

def expectClose : List Token → Except Problem (List Token)
  | .plain ')' :: ts => .ok ts
  | _ => refuse

def skipComment (ts : List Token) : List Token :=
  (ts.dropWhile (· ≠ .plain '\n')).drop 1

def isSkipped (c : Char) : Bool :=
  c = ' ' || (0x09 ≤ c.toNat && c.toNat ≤ 0x0d)

def plainNode (c : Char) (f : Flags) : Node :=
  match c with
  | '.' => .any f.dotAll
  | '^' => .place (.start f.eachLine)
  | '$' => .place (.stop f.eachLine)
  | c => .code c.toNat f.rule

mutual

/-- Alternatives up to a closing parenthesis or the end. `top` says that no group is open. `fuel`
exceeds three times the number of tokens. -/
def readAlternatives :
    Nat → Bool → List Token → Progress → Except Problem (Node × List Token × Progress)
  | 0, _, _, _ => refuse
  | fuel + 1, top, ts, pr => do
      let (first, ts, pr) ← readSequence fuel top [] ts pr
      readFurther fuel (sequence first) ts pr

def readFurther : Nat → Node → List Token → Progress → Except Problem (Node × List Token × Progress)
  | 0, _, _, _ => refuse
  | fuel + 1, first, ts, pr =>
      match ts with
      | .plain '|' :: ts => do
          let (next, ts, pr) ← readSequence fuel false [] ts pr
          let (others, ts, pr) ← readFurther fuel (sequence next) ts pr
          .ok (.alt first others, ts, pr)
      | ts => .ok (first, ts, pr)

/-- Parts up to a bar, a closing parenthesis or the end, after those in `parts`. `leading` says
that flags for the whole expression may still be set. -/
def readSequence : Nat → Bool → List Node → List Token → Progress →
    Except Problem ((List Node) × List Token × Progress)
  | 0, _, _, _, _ => refuse
  | fuel + 1, leading, parts, ts, pr =>
      match ts with
      | [] => .ok (parts, [], pr)
      | .escaped c :: rest => do
          let (node, rest) ← readEscape c rest pr
          readSequence fuel leading (parts ++ [node]) rest pr
      | .plain c :: rest =>
          if c = '|' || c = ')' then .ok (parts, ts, pr)
          else if pr.flags.verbose && isSkipped c then readSequence fuel leading parts rest pr
          else if pr.flags.verbose && c = '#' then
            readSequence fuel leading parts (skipComment rest) pr
          else if c = '[' then do
            let (node, rest) ← readSet rest pr.flags
            readSequence fuel leading (parts ++ [node]) rest pr
          else if c = '(' then do
            let (opening, rest, pr) ← readOpening rest pr
            match opening with
            | .whole f =>
                if leading && parts.isEmpty then
                  readSequence fuel leading parts rest { pr with flags := f }
                else refuse
            | opening => do
                let (node, rest, pr) ← readGroup fuel opening rest pr
                readSequence fuel leading (parts ++ node.toList) rest pr
          else do
            match ← readBounds? c rest with
            | none => readSequence fuel leading (parts ++ [plainNode c pr.flags]) rest pr
            | some (least, most, rest) =>
                match parts.getLast? with
                | none => refuse
                | some last =>
                    if isRepeatable last then
                      let (preference, rest) := readPreference rest
                      let node := Node.rounds least most preference last
                      readSequence fuel leading (parts.dropLast ++ [node]) rest pr
                    else refuse

/-- The contents of a group up to its closing parenthesis; no part for a comment. -/
def readGroup : Nat → Opening → List Token → Progress →
    Except Problem ((Option Node) × List Token × Progress)
  | 0, _, _, _ => refuse
  | fuel + 1, opening, ts, pr =>
      match opening with
      | .done node => .ok (node, ts, pr)
      | .whole _ => refuse
      | .plain => do
          let (node, ts, pr) ← readAlternatives fuel false ts pr
          let ts ← expectClose ts
          .ok (some (wrapped node), ts, pr)
      | .flags f => do
          let outer := pr.flags
          let (node, ts, pr) ← readAlternatives fuel false ts { pr with flags := f }
          let ts ← expectClose ts
          .ok (some (wrapped node), ts, { pr with flags := outer })
      | .atomic => do
          let (node, ts, pr) ← readAlternatives fuel false ts pr
          let ts ← expectClose ts
          .ok (some (.atomic node), ts, pr)
      | .capture name => do
          let index := pr.groupCount
          let names ← match name with
            | none => .ok pr.names
            | some n =>
                if (pr.names.lookup n).isSome then refuse else .ok ((n, index) :: pr.names)
          let (node, ts, pr) ← readAlternatives fuel false ts
            { pr with groupCount := index + 1, names }
          let ts ← expectClose ts
          .ok (some (.group index node), ts,
            { pr with closed := (index, node.width pr.closed) :: pr.closed })
      | .look true negated => do
          let (node, ts, pr) ← readAlternatives fuel false ts pr
          let ts ← expectClose ts
          .ok (some (.ahead negated node), ts, pr)
      | .look false negated => do
          let outer := pr.behindFrom
          let (node, ts, pr) ← readAlternatives fuel false ts
            { pr with behindFrom := some (outer.getD pr.groupCount) }
          let ts ← expectClose ts
          let width := node.width pr.closed
          if width.most = some width.least then
            .ok (some (.behind negated width.least node), ts, { pr with behindFrom := outer })
          else refuse
      | .condition index => do
          let (yes, ts, pr) ← readSequence fuel false [] ts pr
          match ts with
          | .plain '|' :: ts => do
              let (no, ts, pr) ← readSequence fuel false [] ts pr
              let ts ← expectClose ts
              .ok (some (.ifGroup index (sequence yes) (sequence no)), ts, pr)
          | ts => do
              let ts ← expectClose ts
              .ok (some (.ifGroup index (sequence yes) .empty), ts, pr)

end

/-- A regular expression in its written form, read into its parts. -/
def read (source : String) : Except Problem Node := do
  match tokens? source.toList with
  | none => refuse
  | some ts =>
      let start : Progress := ⟨.none, 1, [], [], none, []⟩
      let (node, rest, pr) ← readAlternatives (3 * ts.length + 3) true ts start
      if pr.flags.ascii && pr.flags.unicode then .error .clashingFlags
      else if !rest.isEmpty || pr.conditions.any (fun g => pr.groupCount ≤ g) then refuse
      else .ok node

end Pattern

end Raml
