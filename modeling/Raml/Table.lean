/-! # Tables

A table is a list of keyed entries in the order of their first insertion, with
no key twice. Writing to a key that is present keeps its place and its
spelling. `get?` is the view that every other operation is described by.
-/

namespace Raml

/-- Keyed entries in insertion order. -/
abbrev Table (κ α : Type) := List (κ × α)

namespace Table

variable {κ α β : Type} [BEq κ]

def get? : Table κ α → κ → Option α
  | [], _ => none
  | (k, a) :: rest, key => if k == key then some a else get? rest key

def has (t : Table κ α) (key : κ) : Bool :=
  (t.get? key).isSome

def insert : Table κ α → κ → α → Table κ α
  | [], key, a => [(key, a)]
  | (k, b) :: rest, key, a =>
      if k == key then (k, a) :: rest else (k, b) :: insert rest key a

def erase (t : Table κ α) (key : κ) : Table κ α :=
  t.filter fun e => !(e.1 == key)

def keys (t : Table κ α) : List κ :=
  t.map (·.1)

/-- The values in order of their keys. -/
def values (t : Table κ α) : List α :=
  t.map (·.2)

/-- The entries of `top` written over those of `base`. -/
def overlay (base top : Table κ α) : Table κ α :=
  top.foldl (fun t e => insert t e.1 e.2) base

/-- The table that writing the entries one after the other gives. -/
def ofList (entries : List (κ × α)) : Table κ α :=
  overlay [] entries

/-! ## The view of each operation -/

@[simp] theorem get?_nil (key : κ) : get? ([] : Table κ α) key = none := rfl

theorem get?_insert [LawfulBEq κ] (t : Table κ α) (key key' : κ) (a : α) :
    get? (insert t key a) key' = if key == key' then some a else get? t key' := by
  induction t with
  | nil => rfl
  | cons e rest ih =>
      obtain ⟨k, b⟩ := e
      by_cases hk : k = key
      · subst hk
        by_cases h : k = key' <;> simp [insert, get?, h]
      · by_cases h' : k = key'
        · subst h'
          have h : ¬ key = k := fun e => hk e.symm
          simp [insert, get?, hk, h]
        · simp [insert, get?, hk, h', ih]

theorem get?_isSome_iff [LawfulBEq κ] (t : Table κ α) (key : κ) :
    (get? t key).isSome = true ↔ key ∈ keys t := by
  induction t with
  | nil => simp [get?, keys]
  | cons e rest ih =>
      obtain ⟨k, b⟩ := e
      by_cases h : k = key
      · simp [get?, keys, h]
      · have h' : ¬ key = k := fun e => h e.symm
        simp only [keys] at ih
        simp [get?, keys, h, h', ih]

end Table

end Raml
