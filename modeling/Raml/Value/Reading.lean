import Raml.Fault

/-! # Reading collections

Where a document may hold a collection, an empty value of any kind stands for
none. A mapping is asked for by its entries, and a list by its elements; a text
is a list of its characters and a mapping a list of its keys. A list of pairs
stands for a mapping where one is copied.
-/

namespace Raml

def Table.entry {κ α : Type} [BEq κ] (t : Table κ α) (key : κ) : Except Fault α :=
  match t.get? key with
  | some a => .ok a
  | none => .error .missingKey

namespace Value

def elements? : Value → Option (List Value)
  | .text s => some (s.toList.map fun c => .text c.toString)
  | .bytes b => some (b.map fun n => .int n.toNat)
  | .list items | .tuple items | .set items => some items
  | .map entries => some (Table.keys entries)
  | _ => none

def optionalEntries (v : Value) : Except Fault Mapping :=
  if v.isEmpty then .ok []
  else
    match v with
    | .map entries => .ok entries
    | _ => .error .notMapping

def optionalElements (v : Value) : Except Fault (List Value) :=
  if v.isEmpty then .ok []
  else
    match v.elements? with
    | some items => .ok items
    | none => .error .wrongKind

def pair (v : Value) : Except Fault (Value × Value) :=
  match v.elements? with
  | none => .error .wrongKind
  | some [k, w] => if k.isKey then .ok (k, w) else .error .wrongKind
  | some _ => .error .badValue

def optionalCopy (v : Value) : Except Fault Mapping :=
  match v with
  | .map entries => .ok entries
  | v => do
      let items ← v.optionalElements
      let pairs ← items.mapM pair
      .ok (Table.ofList pairs)

end Value

end Raml
