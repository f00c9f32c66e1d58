import Raml.DataType.Mentions
import Raml.Edit
import Raml.Table

/-! # Registries of types

A registry holds the named types of one API definition in the order of their
first registration. An operation on it may fail half-way; what it has changed
by then stays changed, so the registry is part of the result in any case.
-/

namespace Raml

abbrev Registry := Table String DataType

namespace Registry

def find (r : Registry) (name : String) (referencedBy : Option String) : Except Fault DataType :=
  match r.get? name with
  | some t => .ok t
  | none => .error (.unresolvedType name referencedBy)

/-- The name a type is registered under: the given one, or its own when none or an empty one is
given. -/
def keyFor (t : DataType) (key : Option String) : String :=
  match key with
  | some k => if k.isEmpty then t.name else k
  | none => t.name

/-- The registry with a type registered. A reference becomes bound by being registered. -/
def add (r : Registry) (t : DataType) (key : Option String) : Registry :=
  r.insert (keyFor t key) (t.withBinding true)

def register (t : DataType) (key : Option String) : Edit Registry Unit := do
  Traced.emit (.registered (keyFor t key) t.kind)
  Edit.set ((← Edit.get).add t key)

end Registry

end Raml
