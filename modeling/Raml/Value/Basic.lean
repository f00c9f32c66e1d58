import Raml.Calendar.Instant
import Raml.Number.Basic
import Raml.Table

/-! # Values

The values that a document decodes to, and that types check. Numbers of all
kinds and booleans are compared by their numeric value, mappings without regard
to the order of their entries, and a collection is asked for a value by this
equality.
-/

namespace Raml

/-- A decoded value. A tuple stands for an entry of an ordered mapping; an embedded schema is a
JSON schema that was decoded elsewhere. -/
inductive Value
  | null
  | bool (b : Bool)
  | int (n : Int)
  | float (x : Binary64)
  | text (s : String)
  | bytes (b : List UInt8)
  | list (items : List Value)
  | tuple (items : List Value)
  | map (entries : List (Value × Value))
  | set (members : List Value)
  | date (d : Date)
  | instant (t : Instant)
  | embedded (schema : Value)

instance : Inhabited Value := ⟨.null⟩

namespace Value

/-! ## Equality -/

/-- The numeric value; a boolean counts as 0 or 1. -/
def numeric? : Value → Option Number
  | .bool b => some (.int (if b then 1 else 0))
  | .int n => some (.int n)
  | .float x => some (.float x)
  | _ => none

/-- Equality of two values that hold no others. One object is found to be equal to itself even if
it is no number. -/
def sameScalar (a b : Value) : Bool :=
  match a, b with
  | .float (.notNumber i), .float (.notNumber j) => i.isSome && i == j
  | .null, .null => true
  | .text s, .text t => s == t
  | .bytes s, .bytes t => s == t
  | .date d, .date e => d == e
  | .instant t, .instant u => t.same u
  | a, b =>
      match a.numeric?, b.numeric? with
      | some m, some n => m.same n
      | _, _ => false

mutual

def same : Value → Value → Bool
  | .list xs, .list ys => sameItems xs ys
  | .tuple xs, .tuple ys => sameItems xs ys
  | .map xs, .map ys => xs.length == ys.length && sameEntries xs ys
  | .set xs, .set ys => xs.length == ys.length && sameMembers xs ys
  | .embedded a, .embedded b => same a b
  | a, b => sameScalar a b
termination_by structural a => a

def sameItems : List Value → List Value → Bool
  | [], [] => true
  | x :: xs, y :: ys => same x y && sameItems xs ys
  | _, _ => false
termination_by structural xs => xs

def sameEntries : List (Value × Value) → List (Value × Value) → Bool
  | [], _ => true
  | e :: rest, ys => ys.any (sameEntry e) && sameEntries rest ys
termination_by structural xs => xs

def sameEntry : Value × Value → Value × Value → Bool
  | (k, v), (k', v') => same k k' && same v v'
termination_by structural e => e

def sameMembers : List Value → List Value → Bool
  | [], _ => true
  | x :: xs, ys => ys.any (same x) && sameMembers xs ys
termination_by structural xs => xs

end

instance : BEq Value := ⟨same⟩

/-! ## Views -/

/-- Whether the value counts as absent: null, false, a zero, or empty. -/
def isEmpty : Value → Bool
  | .null => true
  | .bool b => !b
  | .int n => n == 0
  | .float x => x.same (.finite false 0)
  | .text s => s.isEmpty
  | .bytes b => b.isEmpty
  | .list xs => xs.isEmpty
  | .tuple xs => xs.isEmpty
  | .map xs => xs.isEmpty
  | .set xs => xs.isEmpty
  | .date _ | .instant _ | .embedded _ => false

def isNull : Value → Bool
  | .null => true
  | _ => false

def text? : Value → Option String
  | .text s => some s
  | _ => none

def map? : Value → Option (Table Value Value)
  | .map entries => some entries
  | _ => none

def items? : Value → Option (List Value)
  | .list items => some items
  | .tuple items => some items
  | _ => none

def isKey : Value → Bool
  | .list _ | .map _ | .set _ => false
  | _ => true

end Value

/-- A mapping of values to values, as it stands in a document. -/
abbrev Mapping := Table Value Value

namespace Mapping

def field? (m : Mapping) (key : String) : Option Value :=
  m.get? (.text key)

/-- The value under a text key, null when there is none. -/
def field (m : Mapping) (key : String) : Value :=
  (m.field? key).getD .null

def hasField (m : Mapping) (key : String) : Bool :=
  m.has (.text key)

def setField (m : Mapping) (key : String) (v : Value) : Mapping :=
  m.insert (.text key) v

def eraseField (m : Mapping) (key : String) : Mapping :=
  m.erase (.text key)

end Mapping

end Raml
