import Raml.Json.Schema.Finding
import Raml.Pattern.Matcher
import Raml.Pattern.Reader

/-! # Assertions

The keywords of a schema that constrain a value without other schemas: its
type, its bounds, its size, its members and the names of its properties. An
assertion says nothing about values of a type that it is not made for.
-/

namespace Raml

namespace Json

/-- What one keyword says of a value; the schema that the keyword stands in is at hand. -/
abbrev Assertion := (draft : Draft) → (schema : Mapping) → (argument v : Value) → Findings

namespace Assertion

/-! ## Findings of a keyword -/

def isTyped (draft : Draft) (schema : Mapping) (v : Value) : Bool :=
  match schema.field "type" with
  | .text word => hasType draft word v
  | .list words =>
      words.any fun word =>
        match word with
        | .text word => hasType draft word v
        | _ => false
  | _ => false

def report (draft : Draft) (schema : Mapping) (v : Value) (message : String) : Findings :=
  .one (.mk [] false (isTyped draft schema v) message [])

/-- A finding unless a condition holds. -/
def expect (draft : Draft) (schema : Mapping) (v : Value) (holds : Bool) (message : String) :
    Findings :=
  if holds then .none else report draft schema v message

/-- Several things as messages list them, with the verb that goes with their number. -/
def listed (vs : List Value) (one many : String) : String :=
  ", ".intercalate (vs.map Value.inspected) ++ " " ++ if vs.length = 1 then one else many

def sortedByText (vs : List Value) : List Value :=
  vs.mergeSort fun a b => !(b.shown < a.shown)

def withNumber (argument : Value) (f : Number → Findings) : Findings :=
  match number? argument with
  | some n => f n
  | none => .stop .wrongKind

def withItems (argument : Value) (f : List Value → Findings) : Findings :=
  match argument with
  | .list items => f items
  | _ => .stop .wrongKind

def withEntries (argument : Value) (f : Mapping → Findings) : Findings :=
  match argument with
  | .map entries => f entries
  | _ => .stop .notMapping

def ensured : Value → List Value
  | .list items => items
  | v => [v]

/-! ## Any value -/

def type : Assertion := fun draft schema argument v =>
  let words := ensured argument
  let holds := words.any fun word =>
    match word with
    | .text word => hasType draft word v
    | _ => false
  expect draft schema v holds
    (v.inspected ++ " is not of type " ++ ", ".intercalate (words.map Value.inspected))

def enum : Assertion := fun draft schema argument v =>
  withItems argument fun members =>
    expect draft schema v (members.any fun m => strict m v)
      (v.inspected ++ " is not one of " ++ argument.inspected)

def const : Assertion := fun draft schema argument v =>
  expect draft schema v (strict v argument) (argument.inspected ++ " was expected")

/-! ## Numbers -/

def bound (holds : (number limit : Number) → Bool) (words : String) : Assertion :=
  fun draft schema argument v =>
    match number? v with
    | none => .none
    | some n =>
        withNumber argument fun limit =>
          expect draft schema v (holds n limit)
            (v.inspected ++ " is " ++ words ++ " of " ++ argument.inspected)

def minimum : Assertion := bound (fun n limit => !n.less limit) "less than the minimum"

def maximum : Assertion := bound (fun n limit => !limit.less n) "greater than the maximum"

def exclusiveMinimum : Assertion :=
  bound (fun n limit => !(n.less limit || n.same limit)) "less than or equal to the minimum"

def exclusiveMaximum : Assertion :=
  bound (fun n limit => !(limit.less n || n.same limit)) "greater than or equal to the maximum"

/-- A bound that is exclusive if a flag beside it says so. -/
def flagged (flag : String) (inclusive exclusive : Assertion) : Assertion :=
  fun draft schema argument v =>
    if (schema.field flag).isEmpty then inclusive draft schema argument v
    else exclusive draft schema argument v

/-- Whether a binary64 step divides a number. The quotient is rounded before it is tested, unless
it is too large for that. -/
def isMultipleOfFloat (n : Number) (step : Binary64) : Except Fault Bool :=
  match n.toBinary64? with
  | none => .error .overflow
  | some x =>
      match x.quotient step with
      | .notNumber _ => .error .badValue
      | .finite s u => .ok (Binary64.toInt? (.finite s u)).isSome
      | .infinite _ =>
          match x, step with
          | .finite _ u, .finite _ w => .ok (u % w = 0)
          | _, _ => .error .overflow

/-- Whether a step, none when it is too large, divides a binary64 number without remainder. -/
def leavesNoRemainder (x : Binary64) : Option Binary64 → Except Fault Bool
  | none => .error .overflow
  | some step => .ok ((x.remainder? step).any fun r => r.same (.finite false 0))

def isMultipleOf (n step : Number) : Except Fault Bool :=
  match n, step with
  | n, .float step => isMultipleOfFloat n step
  | .int n, .int step => if step = 0 then .error .badValue else .ok (n % step = 0)
  | .float x, .int step => leavesNoRemainder x (Binary64.ofInt? step)

def multipleOf : Assertion := fun draft schema argument v =>
  match number? v with
  | none => .none
  | some n =>
      withNumber argument fun step =>
        .withResult (isMultipleOf n step) fun holds =>
          expect draft schema v holds
            (v.inspected ++ " is not a multiple of " ++ argument.inspected)

/-! ## Sizes -/

def textSize? : Value → Option Nat
  | .text s => some s.length
  | _ => none

def itemCount? : Value → Option Nat
  | .list items => some items.length
  | _ => none

def entryCount? : Value → Option Nat
  | .map entries => some entries.length
  | _ => none

def atLeast (size? : Value → Option Nat) (words : String) : Assertion :=
  fun draft schema argument v =>
    match size? v with
    | none => .none
    | some size =>
        withNumber argument fun limit =>
          expect draft schema v (!(Number.int size).less limit)
            (v.inspected ++ " " ++ if limit.same (.int 1) then "should be non-empty" else words)

def atMost (size? : Value → Option Nat) (words : String) : Assertion :=
  fun draft schema argument v =>
    match size? v with
    | none => .none
    | some size =>
        withNumber argument fun limit =>
          expect draft schema v (!limit.less (.int size))
            (v.inspected ++ " " ++ if limit.isZero then "is expected to be empty" else words)

def minLength : Assertion := atLeast textSize? "is too short"

def maxLength : Assertion := atMost textSize? "is too long"

def minItems : Assertion := atLeast itemCount? "is too short"

def maxItems : Assertion := atMost itemCount? "is too long"

def minProperties : Assertion := atLeast entryCount? "does not have enough properties"

def maxProperties : Assertion := atMost entryCount? "has too many properties"

/-! ## Texts and lists -/

def patternOf (source : String) : Except Fault Pattern.Node :=
  match Pattern.read source with
  | .ok node => .ok node
  | .error .malformed => .error .badPattern
  | .error .tooLarge => .error .overflow
  | .error .clashingFlags => .error .badValue

def pattern : Assertion := fun draft schema argument v =>
  match v with
  | .text s =>
      match argument with
      | .text source =>
          .withResult (patternOf source) fun node =>
            expect draft schema v (node.search s)
              (v.inspected ++ " does not match " ++ argument.inspected)
      | _ => .stop .wrongKind
  | _ => .none

def uniqueItems : Assertion := fun draft schema argument v =>
  match v with
  | .list items =>
      expect draft schema v (argument.isEmpty || allDistinct items)
        (v.inspected ++ " has non-unique elements")
  | _ => .none

/-! ## Names of properties -/

def required : Assertion := fun draft schema argument v =>
  match v with
  | .map entries =>
      withItems argument fun names =>
        .all (fun name =>
          expect draft schema v (Table.has entries name)
            (name.inspected ++ " is a required property")) names
  | _ => .none

def needs (draft : Draft) (schema : Mapping) (v : Value) (entries : Mapping) (property : Value)
    (names : List Value) : Findings :=
  .all (fun name =>
    expect draft schema v (entries.has name)
      (name.inspected ++ " is a dependency of " ++ property.inspected)) names

def dependentRequired : Assertion := fun draft schema argument v =>
  match v with
  | .map entries =>
      withEntries argument fun dependencies =>
        .all (fun e : Value × Value =>
          if Table.has entries e.1 then
            withItems e.2 fun names => needs draft schema v entries e.1 names
          else .none) dependencies
  | _ => .none

end Assertion

end Json

end Raml
