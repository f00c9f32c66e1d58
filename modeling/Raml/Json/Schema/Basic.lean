import Raml.Value.Text

/-! # JSON schemas

The drafts of JSON Schema, the types of values that schemas speak of, and the
equality that they use: booleans are never equal to numbers, and numbers are
compared by value.
-/

namespace Raml

namespace Json

inductive Draft
  | d3
  | d4
  | d6
  | d7
  | d2019
  | d2020
deriving DecidableEq

namespace Draft

/-- The drafts in the order in which they appeared. -/
def rank : Draft → Nat
  | .d3 => 3
  | .d4 => 4
  | .d6 => 6
  | .d7 => 7
  | .d2019 => 8
  | .d2020 => 9

def isFrom (d first : Draft) : Bool :=
  first.rank ≤ d.rank

def identifiers : List (String × Draft) :=
  [("http://json-schema.org/draft-03/schema", .d3),
    ("http://json-schema.org/draft-04/schema", .d4),
    ("http://json-schema.org/draft-06/schema", .d6),
    ("http://json-schema.org/draft-07/schema", .d7),
    ("https://json-schema.org/draft/2019-09/schema", .d2019),
    ("https://json-schema.org/draft/2020-12/schema", .d2020)]

/-- The draft with an identifier; an empty fragment does not matter. -/
def ofIdentifier? (id : String) : Option Draft :=
  let cs := id.toList
  let bare := if cs.getLast? = some '#' then String.ofList cs.dropLast else id
  identifiers.lookup bare

/-- The draft that a schema declares, `current` if it declares none that is known. -/
def ofSchema (current : Draft) (schema : Mapping) : Draft :=
  match schema.field "$schema" with
  | .text id => (ofIdentifier? id).getD current
  | _ => current

end Draft

/-- What a reference leads to: the schema of a name, or the outermost one that recurs. -/
inductive Target
  | named (ref : String)
  | outermost

/-! ## Types -/

def number? : Value → Option Number
  | .int n => some (.int n)
  | .float x => some (.float x)
  | _ => none

def isWhole (x : Binary64) : Bool :=
  x.toInt?.isSome

def hasType (draft : Draft) (word : String) (v : Value) : Bool :=
  match word, v with
  | "null", .null => true
  | "boolean", .bool _ => true
  | "string", .text _ => true
  | "array", .list _ => true
  | "object", .map _ => true
  | "number", .int _ => true
  | "number", .float _ => true
  | "integer", .int _ => true
  | "integer", .float x => draft.isFrom .d6 && isWhole x
  | "any", _ => draft = .d3
  | _, _ => false

def isTypeWord (word : String) : Bool :=
  ["array", "boolean", "integer", "null", "number", "object", "string"].contains word

/-! ## Equality -/

/-- Equality of values that hold no others; booleans are not numbers. -/
def strictScalar (a b : Value) : Bool :=
  match a, b with
  | .bool x, .bool y => x == y
  | .bool _, _ => false
  | _, .bool _ => false
  | a, b => a.sameScalar b

mutual

def strict : Value → Value → Bool
  | .list xs, .list ys => strictItems xs ys
  | .list xs, .tuple ys => strictItems xs ys
  | .tuple xs, .list ys => strictItems xs ys
  | .tuple xs, .tuple ys => strictItems xs ys
  | .map xs, .map ys => xs.length == ys.length && strictEntries xs ys
  | .set xs, .set ys => Value.same (.set xs) (.set ys)
  | a, b => strictScalar a b
termination_by structural a => a

def strictItems : List Value → List Value → Bool
  | [], [] => true
  | x :: xs, y :: ys => strict x y && strictItems xs ys
  | _, _ => false
termination_by structural xs => xs

def strictEntries : List (Value × Value) → List (Value × Value) → Bool
  | [], _ => true
  | e :: rest, ys => ys.any (strictEntry e) && strictEntries rest ys
termination_by structural xs => xs

def strictEntry : Value × Value → Value × Value → Bool
  | (k, v), (k', v') => k == k' && strict v v'
termination_by structural e => e

end

/-- Whether no two of the values are equal. -/
def allDistinct : List Value → Bool
  | [] => true
  | x :: rest => !rest.any (strict x) && allDistinct rest

end Json

end Raml
