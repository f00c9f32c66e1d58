import Raml.Registry.Lookup
import Raml.Validation.Scalar

/-! # Values of data types

A value is validated from the outside in. Objects and arrays hand their parts
to the types nested in them, a union hands the value to its members, and a
reference to the type that it stands for. Between two steps into the value each
registered name is met at most once, unless it is met endlessly; so the weights
of the value and of all declarations bound the depth.
-/

namespace Raml

namespace Validation

variable [Engines]

/-- What remains to check of values: the check of nested types. -/
abbrev Check := DataType → Value → Except Fault Unit

/-! ## Objects -/

def checkProperties (check : Check) (entries : Mapping) :
    List (String × DataType) → Except Fault Unit
  | [] => .ok ()
  | (key, t) :: rest => do
      match entries.field? key with
      | some v => check t v
      | none => require key (!t.required) .requiredProperty
      checkProperties check entries rest

/-- The keys of an object that no property declares. -/
def undeclaredKeys (properties : List (String × DataType)) (entries : Mapping) : List Value :=
  entries.keys.filter fun k =>
    match k with
    | .text key => !Table.has properties key
    | _ => true

def checkObject (check : Check) (c : Common) (f : ObjectFacets)
    (properties : List (String × DataType)) (v : Value) : Except Fault Unit :=
  match v with
  | .map entries => do
      requireBound c.name f.minProperties (fun n => n ≤ entries.length) .minProperties
      requireBound c.name f.maxProperties (fun n => entries.length ≤ n) .maxProperties
      checkProperties check entries properties
      -- the properties that are declared have been checked before any other key is refused
      let undeclared := undeclaredKeys properties entries
      require c.name (f.additionalProperties || undeclared.isEmpty) (.noProperties undeclared)
      requireMember c v
  | _ => .error (.violation c.name .isObject)

/-! ## Arrays -/

/-- Whether no two of the values are equal. -/
def allDiffer : List Value → Bool
  | [] => true
  | v :: rest => !rest.any (fun w => w.same v) && allDiffer rest

def checkItems (check : Check) (items : Option DataType) (vs : List Value) : Except Fault Unit :=
  match items with
  | none => .ok ()
  | some t => vs.forM (check t)

def checkArray (check : Check) (c : Common) (f : ArrayFacets) (items : Option DataType)
    (v : Value) : Except Fault Unit :=
  match v.items? with
  | some vs => do
      requireBound c.name f.minItems (fun n => n ≤ vs.length) .minItems
      requireBound c.name f.maxItems (fun n => vs.length ≤ n) .maxItems
      require c.name (!f.uniqueItems || allDiffer vs) .uniqueItems
      checkItems check items vs
      requireMember c v
  | none => .error (.violation c.name .isArray)

/-! ## Unions -/

/-- Whether some member accepts a value; a fault other than a violation ends the search. -/
def someAccepts (check : Check) (v : Value) : List DataType → Except Fault Bool
  | [] => .ok false
  | t :: rest =>
      match check t v with
      | .ok () => .ok true
      | .error e => if isViolation e then someAccepts check v rest else .error e

def checkUnion (check : Check) (c : Common) (members : List DataType) (v : Value) :
    Except Fault Unit := do
  let accepted ← someAccepts check v members
  require c.name accepted (.someMember (members.map DataType.name))
  requireMember c v

/-! ## All types -/

/-- The requirements on a value of a type, with nested types followed `fuel` levels deep. -/
def validateWithin (r : Registry) : Nat → DataType → Value → Except Fault Unit
  | 0, _, _ => .error .endless
  | fuel + 1, t, v =>
      let check := validateWithin r fuel
      match t with
      | .scalar c s => checkScalar c s v
      | .object c f properties => checkObject check c f properties v
      | .array c f items => checkArray check c f items v
      | .union c members => checkUnion check c members v
      | .reference c target bound => do
          let t ← (DataType.reference c target bound).effective r
          check t v

def registryWeight (r : Registry) : Nat :=
  r.foldl (fun weight e => weight + (Value.weightEntries e.2.declaration + e.1.length + 1)) 0

/-- How deeply types have to be followed at most. -/
def depthBound (r : Registry) (t : DataType) (v : Value) : Nat :=
  (v.weight + 1) * (registryWeight r + Value.weightEntries t.declaration + 3)

end Validation

/-- Whether a value satisfies a type, in the light of a registry; if not, the fault says why. -/
def DataType.validate [Validation.Engines] (r : Registry) (t : DataType) (v : Value) :
    Except Fault Unit :=
  Validation.validateWithin r (Validation.depthBound r t v) t v

end Raml
