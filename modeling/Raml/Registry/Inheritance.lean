import Raml.Registry.Lookup

/-! # Inheritance

A registered reference is a subtype of the type it names. Applying inheritance
replaces it by a type built from its supertype's declaration with its own
facets laid over it, supertypes first, so the order of declaration does not
matter. Afterwards every reference nested anywhere has to name a registered
type.
-/

namespace Raml

namespace Registry

/-- The names from an entry up to its first ancestor that is no reference, after those in
`chain`. -/
def lineageWithin (r : Registry) : Nat → List String → String → Except Fault (List String)
  | fuel, chain, name =>
      match r.get? name with
      | some (.reference _ target _) =>
          if chain.contains name then .error (.inheritanceCycle (chain ++ [name]))
          else if !r.has target then .error (.unresolvedType target (some name))
          else
            -- the names in the chain are registered ones and differ, so there is fuel left
            match fuel with
            | 0 => .error .endless
            | fuel + 1 => do
                let rest ← lineageWithin r fuel (chain ++ [name]) target
                .ok (name :: rest)
      | _ => .ok [name]

/-- The names from an entry up to its first ancestor that is no reference. -/
def lineage (r : Registry) (name : String) : Except Fault (List String) :=
  lineageWithin r (r.length + 1) [] name

/-- The subtype under a name, built from its supertype and registered in its own place. -/
def inheritFrom (parentName : String) (parent : DataType) (name : String) :
    Edit Registry DataType := do
  match (← Edit.get).get? name with
  | none => Edit.fail (.unresolvedType name none)
  | some current =>
      let declaration := Declaration.merge parent.declaration current.declaration
      -- a fault here leaves the entry as it was, while its ancestors stay replaced
      let merged ← (DataType.traced true current.name (.map declaration) : Edit Registry DataType)
      let merged := merged.withParent parentName
      Traced.emit (.inherited name parentName)
      Edit.set ((← Edit.get).insert name merged)
      return merged

/-- The entries of a lineage built one from the other, the oldest first. -/
def settleLineage : List String → Edit Registry (Option (String × DataType))
  | [] => return none
  | name :: ancestors => do
      match ← settleLineage ancestors with
      | none => return ((← Edit.get).get? name).map (name, ·)
      | some (parentName, parent) =>
          let merged ← inheritFrom parentName parent name
          return some (name, merged)

def settle (name : String) : Edit Registry Unit := do
  let names ← ((← Edit.get).lineage name : Except Fault (List String))
  let _ ← settleLineage names

/-- The references nested in a type that name no registered type. -/
def dangling (r : Registry) (t : DataType) : List String :=
  t.descendants.filterMap fun d =>
    match d.target? with
    | some target => if r.has target then none else some target
    | none => none

/-- Whether every reference nested in a registered type names a registered type; if not, the first
that does not. -/
def checkReferences (r : Registry) : Except Fault Unit :=
  match r.findSome? fun e => (r.dangling e.2).head?.map (e.1, ·) with
  | some (name, target) => .error (.unresolvedType target (some name))
  | none => .ok ()

/-- Every registered reference replaced by the type it stands for. -/
def applyInheritance : Edit Registry Unit := do
  Edit.forEach settle (← Edit.get).keys
  ((← Edit.get).checkReferences : Except Fault Unit)

/-- A declared type built and registered under its name, which loses one mark of being optional. -/
def declare (name definition : Value) : Edit Registry Unit := do
  let t ← (DataType.tracedNamed true name definition : Edit Registry DataType)
  register t (some (Text.removeSuffix '?' name.shown))

def declareEach (types : Mapping) : Edit Registry Unit :=
  Edit.forEach (fun e => declare e.1 e.2) types

def declareAll (types : Mapping) : Edit Registry Unit := do
  declareEach types
  applyInheritance

end Registry

end Raml
