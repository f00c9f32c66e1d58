import Raml.DataType.Basic

/-! # Requirements

A requirement on a value either holds or is reported as a violation of one
constraint under the name of the type that makes it. Requirements are checked
in order and the first that does not hold is reported.
-/

namespace Raml

namespace Validation

def require (subject : String) (holds : Bool) (c : Constraint) : Except Fault Unit :=
  if holds then .ok () else .error (.violation subject c)

/-- The requirement that a bound, if there is one, is kept. -/
def requireBound {α : Type} (subject : String) (bound : Option α) (keeps : α → Bool)
    (c : α → Constraint) : Except Fault Unit :=
  match bound with
  | none => .ok ()
  | some limit => require subject (keeps limit) (c limit)

def requireMember (c : Common) (v : Value) : Except Fault Unit :=
  requireBound c.name c.enum (fun members => members.any (Value.same v)) .memberOf

@[simp] theorem require_eq_ok_iff (subject : String) (holds : Bool) (c : Constraint) :
    require subject holds c = .ok () ↔ holds = true := by
  cases holds <;> simp [require]

theorem requireBound_eq_ok_iff {α : Type} (subject : String) (bound : Option α) (keeps : α → Bool)
    (c : α → Constraint) :
    requireBound subject bound keeps c = .ok () ↔ ∀ limit, bound = some limit → keeps limit = true := by
  cases bound <;> simp [requireBound]

def isViolation : Fault → Bool
  | .violation _ _ => true
  | _ => false

end Validation

end Raml
