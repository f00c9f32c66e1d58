import Raml.Value.Basic

/-! # Weights of values

A measure of a value that counts its parts and the characters of its texts.
Whatever stands inside a value weighs less than it, so the weight bounds the
depth of what works through a value from the outside in.
-/

namespace Raml

namespace Value

mutual

/-- A measure of the value that every declaration nested in it falls below. -/
def weight : Value → Nat
  | .text s => s.length + 1
  | .list items => weightItems items + 1
  | .tuple items => weightItems items + 1
  | .map entries => weightEntries entries + 1
  | .set members => weightItems members + 1
  | .embedded schema => weight schema + 1
  | _ => 1
termination_by structural v => v

def weightItems : List Value → Nat
  | [] => 0
  | v :: rest => weight v + weightItems rest
termination_by structural vs => vs

def weightEntries : List (Value × Value) → Nat
  | [] => 0
  | e :: rest => weightEntry e + weightEntries rest
termination_by structural es => es

def weightEntry : Value × Value → Nat
  | (k, v) => weight k + weight v
termination_by structural e => e

end

end Value

end Raml
