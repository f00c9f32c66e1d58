import Raml.DataType.Build
import Raml.Event

/-! # Mentions

Which references are met while a type is built, in order. A reference is told
before its facets are read, and nothing is told after the first nested type
that cannot be built.
-/

namespace Raml

namespace DataType

/-- What is told of each of several types until one cannot be built. -/
def untilFault (tell : String × Value → List Event) : List (String × Value) → List Event
  | [] => []
  | p :: rest =>
      tell p ++
        match build true p.1 p.2 with
        | .ok _ => untilFault tell rest
        | .error _ => []

/-- The references met in a declaration, followed `fuel` levels deep. -/
def mentionsWithin : Nat → String → Value → List Event
  | 0, _, _ => []
  | fuel + 1, name, definition =>
      match Outline.ofDefinition name definition with
      | .error _ => []
      | .ok o =>
          match o.shape with
          | .reference target => [.mention o.name target]
          | shape => untilFault (fun p => mentionsWithin fuel p.1 p.2) shape.nested

/-- The references met while the type declared under a name is built. -/
def mentions (name : String) (definition : Value) : List Event :=
  mentionsWithin definition.weight name definition

def traced (bound : Bool) (name : String) (definition : Value) : Traced DataType :=
  ⟨mentions name definition, build bound name definition⟩

/-- The type declared under a name that is read from a document, with the references met. -/
def tracedNamed (bound : Bool) (name definition : Value) : Traced DataType :=
  match name with
  | .text name => traced bound name definition
  | name => .ofExcept (.error (.typeName name))

@[simp] theorem outcome_traced (bound : Bool) (name : String) (definition : Value) :
    (traced bound name definition).outcome = build bound name definition := rfl

@[simp] theorem outcome_tracedNamed (bound : Bool) (name definition : Value) :
    (tracedNamed bound name definition).outcome = buildNamed bound name definition := by
  cases name <;> rfl

end DataType

end Raml
