import Raml.Yaml.Node
import Raml.Yaml.Scalar.Binary
import Raml.Yaml.Tokens

/-! # Values of nodes

What a node stands for, by its tag. A node may be at fault, and of several
faults the one counts that is nearest to the root of the document, among those
at one depth the first. A mapping may take over the entries of others under a
merge key; its own entries count more, and of several mappings the first.
-/

namespace Raml.Yaml

structure Meaning where
  value : Value
  /-- The faults of the node itself. -/
  faults : List Fault
  /-- The faults of what is inside, by depth. -/
  inner : List (List Fault)

namespace Meaning

def ofValue (v : Value) : Meaning := ⟨v, [], []⟩

def ofFault (f : Fault) : Meaning := ⟨.null, [f], []⟩

def ofExcept (x : Except Fault Value) : Meaning :=
  match x with
  | .ok v => ofValue v
  | .error f => ofFault f

/-- A collection of the wrong kind of node, which shows only when one looks inside. -/
def misshapen (v : Value) : Meaning := ⟨v, [], [[.yaml]]⟩

def besides : List (List Fault) → List (List Fault) → List (List Fault)
  | [], fs => fs
  | fs, [] => fs
  | f :: fs, g :: gs => (f ++ g) :: besides fs gs

def innerFaults (ms : List Meaning) : List (List Fault) :=
  ms.foldl (fun fs m => besides fs m.inner) []

/-- A value that is made of others; `faults` are found on the way to them. -/
def collection (v : Value) (faults : List Fault) (parts : List Meaning) : Meaning :=
  ⟨v, [], faults :: innerFaults parts⟩

/-- The value, unless something is at fault. -/
def toExcept (m : Meaning) : Except Fault Value :=
  match (m.faults ++ m.inner.flatten).head? with
  | some f => .error f
  | none => .ok m.value

end Meaning

/-! ## Scalars -/

/-- The truth value that a word names, in any case. -/
def boolOf (s : String) : Except Fault Bool :=
  let word := String.ofList (s.toList.map Char.toLower)
  match Tag.truths.find? (·.1 == word) with
  | some (_, b) => .ok b
  | none => .error .missingKey

def scalarMeaning (tag : Tag) (s : String) : Meaning :=
  match tag with
  | .null => .ofValue .null
  | .bool => .ofExcept ((boolOf s).map .bool)
  | .int => .ofExcept ((intOf s).map .int)
  | .float => .ofExcept ((floatOf s).map .float)
  | .binary => .ofExcept ((binaryOf s).map .bytes)
  | .timestamp => .ofExcept (timestampOf s)
  | .text => .ofValue (.text s)
  | .seq | .omap | .pairs => .misshapen (.list [])
  | .map => .misshapen (.map [])
  | .set => .misshapen (.set [])
  | .merge | .value | .unknown => .ofFault .yaml

/-! ## Collections -/

structure Entry where
  keyTag : Tag
  key : Meaning
  value : Meaning

namespace Entry

def parts (e : Entry) : List Meaning := [e.key, e.value]

def faults (e : Entry) : List Fault :=
  e.key.faults ++ (if e.key.value.isKey then [] else [.yaml]) ++ e.value.faults

end Entry

structure Entries where
  own : List Entry
  merged : List Entry

/-- All entries of a mapping in the order in which they count: later ones more. -/
def Entries.all (es : Entries) : List Entry := es.merged ++ es.own

def mappingMeaning (es : List Entry) : Meaning :=
  .collection (.map (Table.ofList (es.map fun e => (e.key.value, e.value.value))))
    (es.flatMap Entry.faults) (es.flatMap Entry.parts)

def setMeaning (es : List Entry) : Meaning :=
  .collection (.set (Table.keys (Table.ofList (es.map fun e => (e.key.value, ())))))
    (es.flatMap Entry.faults) (es.flatMap Entry.parts)

def sequenceMeaning (ms : List Meaning) : Meaning :=
  .collection (.list (ms.map (·.value))) (ms.flatMap (·.faults)) ms

/-- The list of pairs that a sequence of mappings with one entry each is; the others are at
fault. -/
def pairsMeaning (items : List (Option (List (Meaning × Meaning)))) : Meaning :=
  let pairs := items.filterMap fun item =>
    match item with
    | some [pair] => some pair
    | _ => none
  let faults := items.flatMap fun item =>
    match item with
    | some [pair] => pair.1.faults ++ pair.2.faults
    | _ => [.yaml]
  .collection (.list (pairs.map fun p => .tuple [p.1.value, p.2.value])) faults
    (pairs.flatMap fun p => [p.1, p.2])

namespace Node

/-- The key that stands for the usual value of a mapping is a text among others. -/
def keyMeaning (tag : Tag) (m : Meaning) (n : Node) : Meaning :=
  match tag, n with
  | .value, .scalar _ s => .ofValue (.text s)
  | _, _ => m

def tag : Node → Tag
  | .scalar tag _ | .sequence tag _ | .mapping tag _ => tag

mutual

def meaning : Node → Meaning
  | .scalar tag s => scalarMeaning tag s
  | .sequence tag items =>
      match tag with
      | .seq => sequenceMeaning (itemMeanings items)
      | .omap | .pairs => pairsMeaning (pairEntries items)
      | .map => .misshapen (.map [])
      | .set => .misshapen (.set [])
      | _ => .ofFault .yaml
  | .mapping tag entries =>
      match tag with
      | .map =>
          match entryMeanings entries with
          | .ok es => mappingMeaning es.all
          | .error f => ⟨.map [], [], [[f]]⟩
      | .set =>
          match entryMeanings entries with
          | .ok es => setMeaning es.all
          | .error f => ⟨.set [], [], [[f]]⟩
      | .seq | .omap | .pairs => .misshapen (.list [])
      | tag => usualMeaning tag entries
termination_by structural n => n

def itemMeanings : List Node → List Meaning
  | [] => []
  | item :: rest => meaning item :: itemMeanings rest
termination_by structural items => items

def pairEntries : List Node → List (Option (List (Meaning × Meaning)))
  | [] => []
  | item :: rest => itemEntries item :: pairEntries rest
termination_by structural items => items

def itemEntries : Node → Option (List (Meaning × Meaning))
  | .mapping _ entries => some (writtenEntries entries)
  | _ => none
termination_by structural n => n

def writtenEntries : List (Node × Node) → List (Meaning × Meaning)
  | [] => []
  | entry :: rest => writtenEntry entry :: writtenEntries rest
termination_by structural entries => entries

def writtenEntry : Node × Node → Meaning × Meaning
  | (k, v) => (meaning k, meaning v)
termination_by structural entry => entry

/-- What a scalar stands for that is written as a mapping: its usual value. -/
def usualMeaning (tag : Tag) : List (Node × Node) → Meaning
  | [] => .ofFault .yaml
  | entry :: rest =>
      match usualScalar tag entry with
      | some m => m
      | none => usualMeaning tag rest
termination_by structural entries => entries

def usualScalar (tag : Tag) : Node × Node → Option Meaning
  | (k, v) => if k.tag = .value then some (scalarOf tag v) else none
termination_by structural entry => entry

def scalarOf (tag : Tag) : Node → Meaning
  | .scalar _ s => scalarMeaning tag s
  | .mapping _ entries => usualMeaning tag entries
  | .sequence _ _ => .ofFault .yaml
termination_by structural n => n

/-- The entries of a mapping with what it takes over from others. -/
def entryMeanings : List (Node × Node) → Except Fault Entries
  | [] => .ok ⟨[], []⟩
  | entry :: rest =>
      match addEntry entry with
      | .error f => .error f
      | .ok first => (entryMeanings rest).map fun more =>
          ⟨first.own ++ more.own, first.merged ++ more.merged⟩
termination_by structural entries => entries

def addEntry : Node × Node → Except Fault Entries
  | (k, v) =>
      if k.tag = .merge then (takenOver v).map fun es => ⟨[], es⟩
      else .ok ⟨[⟨k.tag, keyMeaning k.tag (meaning k) k, meaning v⟩], []⟩
termination_by structural entry => entry

/-- The entries that the value of a merge key stands for: those of a mapping, or of a sequence of
mappings with the first one counting most. -/
def takenOver : Node → Except Fault (List Entry)
  | .mapping _ entries => (entryMeanings entries).map Entries.all
  | .sequence _ items => takenOverAll items
  | .scalar _ _ => .error .yaml
termination_by structural n => n

/-- The entries of a sequence of mappings, those of the last one first. -/
def takenOverAll : List Node → Except Fault (List Entry)
  | [] => .ok []
  | item :: rest =>
      match mappingEntries item with
      | .error f => .error f
      | .ok es => (takenOverAll rest).map fun more => more ++ es
termination_by structural items => items

def mappingEntries : Node → Except Fault (List Entry)
  | .mapping _ entries => (entryMeanings entries).map Entries.all
  | _ => .error .yaml
termination_by structural n => n

end

end Node

/-- The value of the only document of a text, null in an empty text. -/
def read (text : String) : Except Fault Value :=
  if text.toList.all isPrintable then do
    match ← Node.ofTokens (Token.ofText text) with
    | some n => n.meaning.toExcept
    | none => .ok .null
  else .error .yaml

end Raml.Yaml
