import Raml.DataType.Basic
import Raml.Value.Reading
import Raml.Value.Text

/-! # Events

What happens while a document is read, for the log. The wording and the levels
of the log lines are settled where lines are written.
-/

namespace Raml

inductive Event
  /-- The type under a name refers to another one, which is looked up when it is used. -/
  | mention (name target : String)
  | registered (key : String) (kind : Kind)
  | inherited (name parent : String)
  | resource (uri : String) (methods : Nat)
  | api (title : String) (types resources : Nat)
  | loaded (path title : String) (routes : Nat)

/-- A result with the events on the way to it, also when the way ends in a fault. -/
structure Traced (α : Type) where
  events : List Event
  outcome : Except Fault α

namespace Traced

variable {α β : Type}

def ofExcept (x : Except Fault α) : Traced α := ⟨[], x⟩

def emit (e : Event) : Traced Unit := ⟨[e], .ok ()⟩

/-- One result after another; a fault ends the way. -/
def bind (x : Traced α) (f : α → Traced β) : Traced β :=
  match x.outcome with
  | .error e => ⟨x.events, .error e⟩
  | .ok a => ⟨x.events ++ (f a).events, (f a).outcome⟩

instance : Monad Traced where
  pure a := ofExcept (.ok a)
  bind := bind

instance : LawfulMonad Traced := LawfulMonad.mk' Traced
  (fun x => by
    obtain ⟨events, outcome⟩ := x
    cases outcome <;> simp [Functor.map, Traced.bind, ofExcept])
  (fun a f => by simp [Bind.bind, Pure.pure, Traced.bind, ofExcept])
  (fun x f g => by
    simp only [Bind.bind, Traced.bind]
    cases x.outcome with
    | error e => rfl
    | ok a => cases h : (f a).outcome <;> simp [h])

instance : MonadLift (Except Fault) Traced := ⟨ofExcept⟩

/-! ## Outcomes without their events -/

@[simp] theorem outcome_pure (a : α) : (pure a : Traced α).outcome = .ok a := rfl

@[simp] theorem outcome_ofExcept (x : Except Fault α) : (ofExcept x).outcome = x := rfl

@[simp] theorem outcome_emit (e : Event) : (emit e).outcome = .ok () := rfl

@[simp] theorem outcome_bind (x : Traced α) (f : α → Traced β) :
    (x >>= f).outcome = x.outcome >>= fun a => (f a).outcome := by
  show (Traced.bind x f).outcome = _
  unfold Traced.bind
  cases x.outcome <;> rfl

theorem outcome_mapM (f : α → Traced β) (xs : List α) :
    (xs.mapM f).outcome = xs.mapM fun a => (f a).outcome := by
  induction xs with
  | nil => rfl
  | cons a rest ih =>
      simp only [List.mapM_cons, outcome_bind, outcome_pure, ih]
      rfl

end Traced

/-- What an optional mapping declares, each record under the key of its entry as it stands. For
bytes that is not the key which the record has, the text that they encode. -/
def Value.records {α : Type} (v : Value) (read : Value → Value → Traced α) :
    Traced (Table String α) := do
  let entries ← (v.optionalEntries : Except Fault Mapping)
  let records ← entries.mapM fun e => do
    return (e.1.shown, ← read e.1 e.2)
  return Table.ofList records

end Raml
