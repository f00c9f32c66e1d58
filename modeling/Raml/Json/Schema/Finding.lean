import Raml.Fault
import Raml.Json.Schema.Basic

/-! # Findings

What a check of a value against a schema finds. Of several findings one is
reported: the one nearest to the top, then the last among siblings, with
alternatives that all fail counting least. A finding about alternatives gives
way to one of theirs, unless the best two of those are equally relevant.
-/

namespace Raml

namespace Json

/-- A step into a value: a key of a mapping or an index of a list. -/
inductive Step
  | key (k : String)
  | index (n : Nat)
deriving DecidableEq

/-- A place where a value breaks a schema. `weak` marks alternatives that all fail, `typed` a value
that at least has the type that the schema asks for. -/
inductive Finding
  | mk (path : List Step) (weak typed : Bool) (message : String) (context : List Finding)

namespace Finding

def path : Finding → List Step
  | .mk path _ _ _ _ => path

def weak : Finding → Bool
  | .mk _ weak _ _ _ => weak

def typed : Finding → Bool
  | .mk _ _ typed _ _ => typed

def message : Finding → String
  | .mk _ _ _ message _ => message

def context : Finding → List Finding
  | .mk _ _ _ _ context => context

def under (step : Step) : Finding → Finding
  | .mk path weak typed message context => .mk (step :: path) weak typed message context

/-- The order of steps: keys by their characters, indices by number. -/
def compareSteps : List Step → List Step → Ordering
  | [], [] => .eq
  | [], _ :: _ => .lt
  | _ :: _, [] => .gt
  | a :: as, b :: bs =>
      let first := match a, b with
        | .key k, .key l => compare k l
        | .index m, .index n => compare m n
        | .key _, .index _ => .gt
        | .index _, .key _ => .lt
      first.then (compareSteps as bs)

def relevance (a b : Finding) : Ordering :=
  (compare b.path.length a.path.length).then <|
    (compareSteps a.path b.path).then <|
      (compare (!a.weak) (!b.weak)).then (compare (!a.typed) (!b.typed))

def mostRelevant? : List Finding → Option Finding
  | [] => none
  | f :: rest =>
      some (rest.foldl (fun best g => if relevance best g = .lt then g else best) f)

def fromLeast (fs : List Finding) : List Finding :=
  fs.mergeSort fun a b => relevance a b != .gt

/-- The finding that stands for another one: the least relevant of its alternatives, if there is
just one such, and so on. -/
def narrowed : Nat → Finding → Finding
  | 0, f => f
  | depth + 1, f =>
      match fromLeast f.context with
      | [] => f
      | [g] => narrowed depth g
      | g :: h :: _ => if relevance g h = .eq then f else narrowed depth g

mutual

def depth : Finding → Nat
  | .mk _ _ _ _ context => depthOf context + 1
termination_by structural f => f

def depthOf : List Finding → Nat
  | [] => 0
  | f :: rest => max (depth f) (depthOf rest)
termination_by structural fs => fs

end

def best? (fs : List Finding) : Option Finding :=
  (mostRelevant? fs).map fun f => f.narrowed f.depth

end Finding

/-- The findings of a check in order, and the fault that ended it early. -/
structure Findings where
  found : List Finding
  halt : Option Fault

namespace Findings

def none : Findings := ⟨[], .none⟩

def one (f : Finding) : Findings := ⟨[f], .none⟩

def stop (fault : Fault) : Findings := ⟨[], some fault⟩

def and (a : Findings) (b : Unit → Findings) : Findings :=
  match a.halt with
  | some _ => a
  | .none =>
      let second := b ()
      ⟨a.found ++ second.found, second.halt⟩

def all {α : Type} (check : α → Findings) : List α → Findings
  | [] => none
  | a :: rest => (check a).and fun _ => all check rest

def under (step : Step) (fs : Findings) : Findings :=
  ⟨fs.found.map (·.under step), fs.halt⟩

/-- Whether nothing is found; a fault counts only when it comes before any finding. -/
def isClean (fs : Findings) : Except Fault Bool :=
  if !fs.found.isEmpty then .ok false
  else
    match fs.halt with
    | some fault => .error fault
    | .none => .ok true

def withResult {α : Type} (x : Except Fault α) (f : α → Findings) : Findings :=
  match x with
  | .ok a => f a
  | .error fault => stop fault

end Findings

end Json

end Raml
