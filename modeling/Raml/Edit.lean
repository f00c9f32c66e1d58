import Raml.Event

/-! # Edits

An edit is an operation on a state that may fail half-way. What it has changed
by then stays changed, so the state after it is part of its result in any case,
and so are the events on the way.
-/

namespace Raml

/-- The result of an edit: the events, the state after it, and the outcome. -/
structure Change (σ α : Type) where
  events : List Event
  state : σ
  outcome : Except Fault α

def Edit (σ α : Type) := σ → Change σ α

namespace Edit

variable {σ τ α β : Type}

/-- One edit after another; a fault ends the run and keeps the state as it is then. -/
def bind (x : Edit σ α) (f : α → Edit σ β) : Edit σ β := fun s =>
  let first := x s
  match first.outcome with
  | .error e => ⟨first.events, first.state, .error e⟩
  | .ok a =>
      let second := f a first.state
      ⟨first.events ++ second.events, second.state, second.outcome⟩

instance : Monad (Edit σ) where
  pure a := fun s => ⟨[], s, .ok a⟩
  bind := bind

/-- A result that does not touch the state. -/
def ofTraced (x : Traced α) : Edit σ α := fun s => ⟨x.events, s, x.outcome⟩

/-- A result that neither touches the state nor tells anything. -/
def ofExcept (x : Except Fault α) : Edit σ α := ofTraced (.ofExcept x)

instance : MonadLift Traced (Edit σ) := ⟨ofTraced⟩

instance : MonadLift (Except Fault) (Edit σ) := ⟨ofExcept⟩

def get : Edit σ σ := fun s => ⟨[], s, .ok s⟩

def set (s : σ) : Edit σ Unit := fun _ => ⟨[], s, .ok ()⟩

def modify (f : σ → σ) : Edit σ Unit := fun s => ⟨[], f s, .ok ()⟩

def fail (f : Fault) : Edit σ α := ofExcept (.error f)

def onPart (part : σ → τ) (replace : τ → σ → σ) (x : Edit τ α) : Edit σ α := fun s =>
  let change := x (part s)
  ⟨change.events, replace change.state s, change.outcome⟩

def forEach (f : α → Edit σ Unit) : List α → Edit σ Unit
  | [] => pure ()
  | a :: rest => do
      f a
      forEach f rest

end Edit

end Raml
