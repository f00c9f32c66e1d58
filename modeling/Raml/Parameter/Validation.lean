import Raml.Parameter.Pattern
import Raml.Validation.DataType

/-! # Values of parameters

A value that is absent is accepted unless the parameter is required. Texts have
to keep the bounds on the length and to match the parameter's pattern, numbers
to keep the bounds on the size; other values need only be members of the
enumeration.
-/

namespace Raml

namespace Parameter

open Validation

def checkText (p : Parameter) (s : String) : Except Fault Unit := do
  requireBound p.key p.minLength (fun n => n ≤ s.length) .minLength
  requireBound p.key p.maxLength (fun n => s.length ≤ n) .maxLength
  -- the pattern may occur anywhere in the text unless it is anchored
  let node ← Json.Assertion.patternOf p.matchPattern
  require p.key (node.search s) (.parameterPattern p.matchPattern)

def checkNumber (p : Parameter) (n : Number) : Except Fault Unit := do
  requireBound p.key p.minimum (fun m => !n.less m) .minimum
  requireBound p.key p.maximum (fun m => !m.less n) .maximum

def checkOwn (p : Parameter) (v : Value) : Except Fault Unit := do
  requireBound p.key p.enum (fun members => members.any (Value.same v)) .memberOf
  match v, Json.number? v with
  | .text s, _ => p.checkText s
  | _, some n => p.checkNumber n
  | _, none => .ok ()

def validate (r : Registry) (p : Parameter) (v : Value) : Except Fault Unit :=
  match v, p.valueType with
  | .null, _ => require p.key (!p.required) .requiredParameter
  | v, some t => t.validate r v
  | v, none => p.checkOwn v

end Parameter

end Raml
