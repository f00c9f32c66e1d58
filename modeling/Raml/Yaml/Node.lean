import Raml.Yaml.Tag
import Raml.Yaml.Token

/-! # Nodes

The tree that the tokens of a document describe. An alias stands for the node
that has its anchor, which comes earlier in the text; it cannot stand for a node
that it is a part of.
-/

namespace Raml.Yaml

inductive Node
  | scalar (tag : Tag) (text : String)
  | sequence (tag : Tag) (items : List Node)
  | mapping (tag : Tag) (entries : List (Node × Node))

abbrev Handles := Table String String

structure Reading where
  tokens : List Token
  /-- The nodes with anchors; a node that is not complete yet is there without itself. -/
  anchors : Table String (Option Node)

def Parse (α : Type) := Reading → Except Fault (α × Reading)

namespace Parse

variable {α β : Type}

def bind (x : Parse α) (f : α → Parse β) : Parse β := fun r =>
  match x r with
  | .error e => .error e
  | .ok (a, r) => f a r

instance : Monad Parse where
  pure a := fun r => .ok (a, r)
  bind := bind

def fail (f : Fault) : Parse α := fun _ => .error f

def peek : Parse Token := fun r =>
  match r.tokens with
  | [] => .error .yaml
  | .broken f :: _ => .error f
  | t :: _ => .ok (t, r)

def skip : Parse Unit := fun r => .ok ((), { r with tokens := r.tokens.drop 1 })

def lookUp (name : String) : Parse Node := fun r =>
  match r.anchors.get? name with
  | some (some n) => .ok (n, r)
  | some none => .error .endless
  | none => .error .yaml

/-- The anchor of a node that begins here. No anchor is given twice. -/
def declare (anchor : Option String) : Parse Unit := fun r =>
  match anchor with
  | none => .ok ((), r)
  | some name =>
      if r.anchors.has name then .error .yaml
      else .ok ((), { r with anchors := r.anchors.insert name none })

def complete (anchor : Option String) (n : Node) : Parse Node := fun r =>
  match anchor with
  | none => .ok (n, r)
  | some name => .ok (n, { r with anchors := r.anchors.insert name (some n) })

end Parse

namespace Node

open Parse

/-- The node where nothing is written. -/
def empty : Node := .scalar .null ""

/-! ## Properties of nodes -/

structure Properties where
  anchor : Option String
  tag : Option String

def Properties.isGiven (p : Properties) : Bool :=
  p.anchor.isSome || p.tag.isSome

/-- The full name of a tag; its handle has to be known. -/
def fullTag (handles : Handles) (handle : Option String) (rest : String) :
    Except Fault String :=
  match handle with
  | none => .ok rest
  | some handle =>
      match handles.get? handle with
      | some start => .ok (start ++ rest)
      | none => .error .yaml

def readAnchor : Parse (Option String) := do
  match ← peek with
  | .anchor name => do
      skip
      return some name
  | _ => return none

def readTag (handles : Handles) : Parse (Option String) := do
  match ← peek with
  | .tag handle rest =>
      match fullTag handles handle rest with
      | .ok name => do
          skip
          return some name
      | .error f => fail f
  | _ => return none

/-- The properties of a node, in either order. -/
def readProperties (handles : Handles) : Parse Properties := do
  match ← readAnchor with
  | some name => return ⟨some name, ← readTag handles⟩
  | none =>
      match ← readTag handles with
      | some tag => return ⟨← readAnchor, some tag⟩
      | none => return ⟨none, none⟩

def openTag : String := "!"

def scalarTag (tag : Option String) (isPlain : Bool) (text : String) : Tag :=
  match tag with
  | none => if isPlain then .ofPlain text else .text
  | some name => if name == openTag then .ofPlain text else .ofName name

def collectionTag (tag : Option String) (usual : Tag) : Tag :=
  match tag with
  | none => usual
  | some name => if name == openTag then usual else .ofName name

/-! ## Reading -/

def endsBlockPart : Token → Bool
  | .key | .value | .blockEnd => true
  | _ => false

def endsBlockItem (isIndented : Bool) : Token → Bool
  | .blockEntry | .blockEnd => true
  | .key | .value => !isIndented
  | _ => false

def closesFlow (isMapping : Bool) : Token → Bool
  | .flowSequenceEnd => !isMapping
  | .flowMappingEnd => isMapping
  | _ => false

def endsFlowValue (isMapping : Bool) (t : Token) : Bool :=
  match t with
  | .flowEntry => true
  | t => closesFlow isMapping t

def endsFlowKey (isMapping : Bool) (t : Token) : Bool :=
  match t with
  | .value => true
  | t => endsFlowValue isMapping t

/-- The comma that has to stand before an item in brackets, unless it is the first one. -/
def readComma (isFirst : Bool) : Parse Unit := do
  if isFirst then return
  match ← peek with
  | .flowEntry => skip
  | _ => fail .yaml

mutual

/-- A node. Blocks may start only where `inBlock` holds, and a sequence without an indentation of
its own only where `isValue` holds. -/
def read (handles : Handles) (inBlock isValue : Bool) : Nat → Parse Node
  | 0 => fail .endless
  | fuel + 1 => do
      match ← peek with
      | .alias name => do
          skip
          lookUp name
      | _ => do
          let p ← readProperties handles
          declare p.anchor
          complete p.anchor (← readContent handles inBlock isValue p fuel)
termination_by structural fuel => fuel

def readContent (handles : Handles) (inBlock isValue : Bool) (p : Properties) :
    Nat → Parse Node
  | 0 => fail .endless
  | fuel + 1 => do
      let t ← peek
      match t, inBlock, isValue with
      | .blockEntry, _, true =>
          return .sequence (collectionTag p.tag .seq) (← readItems handles false fuel)
      | .scalar text isPlain, _, _ => do
          skip
          return .scalar (scalarTag p.tag isPlain text) text
      | .flowSequenceStart, _, _ => do
          skip
          return .sequence (collectionTag p.tag .seq) (← readFlowItems handles true fuel)
      | .flowMappingStart, _, _ => do
          skip
          return .mapping (collectionTag p.tag .map) (← readFlowEntries handles true fuel)
      | .blockSequenceStart, true, _ => do
          skip
          return .sequence (collectionTag p.tag .seq) (← readItems handles true fuel)
      | .blockMappingStart, true, _ => do
          skip
          return .mapping (collectionTag p.tag .map) (← readEntries handles fuel)
      | _, _, _ =>
          if p.isGiven then return .scalar (scalarTag p.tag true "") "" else fail .yaml
termination_by structural fuel => fuel

def readItems (handles : Handles) (isIndented : Bool) : Nat → Parse (List Node)
  | 0 => fail .endless
  | fuel + 1 => do
      match ← peek with
      | .blockEntry => do
          skip
          let item ←
            if endsBlockItem isIndented (← peek) then pure empty
            else read handles true false fuel
          return item :: (← readItems handles isIndented fuel)
      | .blockEnd => do
          if isIndented then skip
          return []
      | _ => if isIndented then fail .yaml else return []
termination_by structural fuel => fuel

def readEntries (handles : Handles) : Nat → Parse (List (Node × Node))
  | 0 => fail .endless
  | fuel + 1 => do
      match ← peek with
      | .key => do
          skip
          let key ← if endsBlockPart (← peek) then pure empty else read handles true true fuel
          let value ← readBlockValue handles fuel
          return (key, value) :: (← readEntries handles fuel)
      | .blockEnd => do
          skip
          return []
      | _ => fail .yaml
termination_by structural fuel => fuel

def readBlockValue (handles : Handles) : Nat → Parse Node
  | 0 => fail .endless
  | fuel + 1 => do
      match ← peek with
      | .value => do
          skip
          if endsBlockPart (← peek) then return empty else read handles true true fuel
      | _ => return empty
termination_by structural fuel => fuel

def readFlowItems (handles : Handles) (isFirst : Bool) : Nat → Parse (List Node)
  | 0 => fail .endless
  | fuel + 1 => do
      if closesFlow false (← peek) then
        skip
        return []
      readComma isFirst
      match ← peek with
      | .flowSequenceEnd => do
          skip
          return []
      | .key => do
          let entry ← readFlowEntry handles false fuel
          return .mapping .map [entry] :: (← readFlowItems handles false fuel)
      | _ => do
          let item ← read handles false false fuel
          return item :: (← readFlowItems handles false fuel)
termination_by structural fuel => fuel

/-- The entries between braces. A key may stand without a value. -/
def readFlowEntries (handles : Handles) (isFirst : Bool) : Nat → Parse (List (Node × Node))
  | 0 => fail .endless
  | fuel + 1 => do
      if closesFlow true (← peek) then
        skip
        return []
      readComma isFirst
      match ← peek with
      | .flowMappingEnd => do
          skip
          return []
      | .key => do
          let entry ← readFlowEntry handles true fuel
          return entry :: (← readFlowEntries handles false fuel)
      | _ => do
          let key ← read handles false false fuel
          return (key, empty) :: (← readFlowEntries handles false fuel)
termination_by structural fuel => fuel

def readFlowEntry (handles : Handles) (isMapping : Bool) : Nat → Parse (Node × Node)
  | 0 => fail .endless
  | fuel + 1 => do
      skip
      let key ←
        if endsFlowKey isMapping (← peek) then pure empty else read handles false false fuel
      match ← peek with
      | .value => do
          skip
          if endsFlowValue isMapping (← peek) then return (key, empty)
          return (key, ← read handles false false fuel)
      | _ => return (key, empty)
termination_by structural fuel => fuel

end

/-! ## Documents -/

/-- The shorthands that need no directive. -/
def usualHandles : Handles := [("!", "!"), ("!!", Tag.start)]

/-- The shorthands of the directives before a document; each is given once, and the version has to
be of the first kind. -/
def readDirectives (hasVersion : Bool) (handles : Handles) : Nat → Parse Handles
  | 0 => fail .endless
  | fuel + 1 => do
      match ← peek with
      | .directive d => do
          skip
          match d with
          | .version major =>
              if hasVersion || major ≠ 1 then fail .yaml
              else readDirectives true handles fuel
          | .handle handle start =>
              if handles.has handle then fail .yaml
              else readDirectives hasVersion (handles.insert handle start) fuel
          | .other => readDirectives hasVersion handles fuel
      | _ => return handles

/-- Whether nothing is written in a document. -/
def endsDocument : Token → Bool
  | .directive _ | .documentStart | .documentEnd | .finish => true
  | _ => false

/-- The node of a document that starts with directives or a mark. -/
def readMarked (fuel : Nat) : Parse Node := do
  let handles ← readDirectives false [] fuel
  match ← peek with
  | .documentStart => do
      skip
      if endsDocument (← peek) then return empty
      read (Table.overlay usualHandles handles) true false fuel
  | _ => fail .yaml

/-- The end of the text after marks for the end of a document. -/
def readEnd : Nat → Parse Unit
  | 0 => fail .endless
  | fuel + 1 => do
      match ← peek with
      | .documentEnd => do
          skip
          readEnd fuel
      | .finish => return
      | _ => fail .yaml

/-- The node of the only document of a text, none in an empty text. -/
def readDocument (fuel : Nat) : Parse (Option Node) := do
  match ← peek with
  | .finish => return none
  | .directive _ | .documentStart => do
      let n ← readMarked fuel
      readEnd fuel
      return some n
  | _ => do
      let n ← read usualHandles true false fuel
      readEnd fuel
      return some n

/-- The node that tokens describe. Of two steps at least one reads a token, and every list of items
takes a step more to end. -/
def ofTokens (ts : List Token) : Except Fault (Option Node) :=
  (readDocument (4 * ts.length + 4) ⟨ts, []⟩).map (·.1)

end Node

end Raml.Yaml
