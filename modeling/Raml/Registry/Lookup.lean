import Raml.Registry.Basic

/-! # Looking up references

A reference is followed from name to name until a type that is no reference.
The names on the way are kept, so that a name met again is reported as a cycle;
hence there are never more steps than registered names and one.
-/

namespace Raml

namespace DataType

/-- Facets that describe a reference without constraining its values. -/
def descriptiveFacets : List String :=
  ["type", "required", "displayName", "description", "example", "examples", "default", "repeat"]

def isConstraining (key : Value) : Bool :=
  match key with
  | .text k => !descriptiveFacets.contains k
  | _ => true

/-- The first type that is no reference on the way from `t`, after the names in `seen`. -/
def followWithin (r : Registry) : Nat → List String → DataType → Except Fault DataType
  | fuel, seen, .reference c target bound =>
      -- an unbound reference has no registry to look in, whatever `r` holds
      if !bound then .error (.unresolvedType target (some c.name))
      else if seen.contains target then .error (.inheritanceCycle (seen ++ [target]))
      else
        match r.get? target with
        | none => .error (.unresolvedType target (some c.name))
        | some t =>
            -- the names seen are registered ones and differ, so there is fuel left
            match fuel with
            | 0 => .error .endless
            | fuel + 1 => followWithin r fuel (seen ++ [target]) t
  | _, _, t => .ok t

def resolve (r : Registry) (t : DataType) : Except Fault DataType :=
  followWithin r (r.length + 1) [] t

/-- The type whose constraints a reference's values have to satisfy: its target, narrowed by the
constraining facets that stand beside the reference. -/
def effective (r : Registry) (t : DataType) : Except Fault DataType := do
  let target ← t.resolve r
  if t.declaration.any fun e => isConstraining e.1 then
    build true t.name (.map (Declaration.merge target.declaration t.declaration))
  else .ok target

end DataType

end Raml
