import Raml.Registry.Inheritance

/-! # Sessions

A session works on one registry and holds some types beside it in numbered
slots. A reference that is held and registered is one and the same: binding it
in its slot binds the registered one as well, for as long as the registry has
it.
-/

namespace Raml

/-- A registry, the types held beside it, and which registered names stand for which slots. -/
structure Session where
  registry : Registry
  held : Table Int DataType
  shared : List (String × Int)

namespace Session

def empty : Session := ⟨[], [], []⟩

def inSlot (s : Session) (slot : Int) : Except Fault DataType :=
  match s.held.get? slot with
  | some t => .ok t
  | none => .error .missingKey

def hold (s : Session) (slot : Int) (t : DataType) : Session :=
  { s with held := s.held.insert slot t, shared := s.shared.filter fun p => p.2 ≠ slot }

def add (s : Session) (t : DataType) (key : Option String) : Session :=
  let name := Registry.keyFor t key
  { s with registry := s.registry.add t key, shared := s.shared.filter fun p => p.1 ≠ name }

/-- The session with the type in a slot registered; it becomes bound by that. -/
def addHeld (s : Session) (slot : Int) (key : Option String) : Except Fault Session := do
  let t ← s.inSlot slot
  let name := Registry.keyFor t key
  let s := s.add t key
  .ok
    { s with
      held := s.held.insert slot (t.withBinding true)
      shared := (name, slot) :: s.shared }

/-- Whether a reference is bound; other types have no binding. -/
def isBound : DataType → Except Fault Bool
  | .reference _ _ bound => .ok bound
  | _ => .error .notMapping

/-- The session with the reference in a slot bound or unbound. -/
def bind (s : Session) (slot : Int) (bound : Bool) : Except Fault Session := do
  let t ← s.inSlot slot
  let _ ← isBound t
  let isShared (name : String) : Bool := s.shared.any fun p => p == (name, slot)
  .ok
    { s with
      held := s.held.insert slot (t.withBinding bound)
      registry := s.registry.map fun e =>
        if isShared e.1 then (e.1, e.2.withBinding bound) else e }

/-- The session with inheritance applied to its registry. An entry that was built anew is no
longer the held one. -/
def applyInheritance (s : Session) : Session × Except Fault Unit :=
  let change := Registry.applyInheritance s.registry
  let isReference (name : String) : Bool :=
    (change.state.get? name).any fun t => t.kind = .reference
  ({ s with
      registry := change.state
      shared := s.shared.filter fun p => isReference p.1 }, change.outcome)

def clear (s : Session) : Session :=
  { s with registry := [], shared := [] }

/-- Whether a name is registered; a value that cannot be a key cannot be asked for. -/
def contains (s : Session) (name : Value) : Except Fault Bool :=
  match name with
  | .text name => .ok (s.registry.has name)
  | name => if name.isKey then .ok false else .error .wrongKind

/-- The type that a reference stands for; other types stand for themselves and are not asked. -/
def target (s : Session) (look : Registry → DataType → Except Fault DataType) (t : DataType) :
    Except Fault DataType := do
  let _ ← isBound t
  look s.registry t

end Session

end Raml
