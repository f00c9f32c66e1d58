import Raml.Fault
import Raml.Number.Integer

/-! # Fields of records

A record is built from a mapping field by field. Each field has a kind and
accepts a value of that kind or one that stands for it: digits for an integer,
a whole binary64 number for an integer, `yes` for true. Every field is read, so
that a record that cannot be built names all the keys at fault.
-/

namespace Raml

/-- The fields read so far, or the keys of those that cannot be read. -/
inductive Checked (α : Type)
  | ok (a : α)
  | bad (keys : List String)

namespace Checked

variable {α β : Type}

def map (f : α → β) : Checked α → Checked β
  | .ok a => .ok (f a)
  | .bad keys => .bad keys

/-- One more field; the keys at fault are collected. -/
def seq (f : Checked (α → β)) (x : Checked α) : Checked β :=
  match f, x with
  | .ok f, .ok a => .ok (f a)
  | .ok _, .bad keys => .bad keys
  | .bad keys, .ok _ => .bad keys
  | .bad keys, .bad more => .bad (keys ++ more)

instance : Functor Checked := ⟨map, fun a => map fun _ => a⟩

instance : Applicative Checked where
  pure := .ok
  seq f x := seq f (x ())

/-- The record, or the fault that names the keys, sorted and each once. -/
def toExcept (record : Record) : Checked α → Except Fault α
  | .ok a => .ok a
  | .bad keys => .error (.badFields record (keys.eraseDups.mergeSort fun a b => !(b < a)))

theorem toExcept_eq_ok_iff (record : Record) (x : Checked α) (a : α) :
    x.toExcept record = .ok a ↔ x = .ok a := by
  cases x <;> simp [toExcept]

end Checked

namespace Field

/-! ## Kinds of fields -/

/-- The text that bytes encode as UTF-8. -/
def decodeUtf8? (bytes : List UInt8) : Option String :=
  String.fromUTF8? ⟨bytes.toArray⟩

def text? : Value → Option String
  | .text s => some s
  | .bytes b => decodeUtf8? b
  | _ => none

def optional {α : Type} (kind : Value → Option α) : Value → Option (Option α)
  | .null => some none
  | v => (kind v).map some

def truthOfWord? (s : String) : Option Bool :=
  let word := String.ofList (s.toList.map Char.toLower)
  if ["0", "off", "f", "false", "n", "no"].contains word then some false
  else if ["1", "on", "t", "true", "y", "yes"].contains word then some true
  else none

/-- A truth value, one of its words, or a number equal to 0 or 1. -/
def truth? (v : Value) : Option Bool :=
  match v with
  | .bool b => some b
  | .int n => if n = 0 then some false else if n = 1 then some true else none
  | .float x =>
      if x.same (.finite false 0) then some false
      else if x.toInt? = some 1 then some true
      else none
  | v => (text? v).bind truthOfWord?

/-- The integers that a binary64 number may stand for. -/
def wordLimit : Int := 0x8000000000000000

/-- An integer, a truth value as 0 or 1, a whole binary64 number of at most 63 bits, or the text
of an integer. -/
def int? (v : Value) : Option Int :=
  match v with
  | .bool b => some (if b then 1 else 0)
  | .int n => some n
  | .float x =>
      match x.toInt? with
      | some n => if -wordLimit < n && n < wordLimit then some n else none
      | none => none
  | v => (text? v).bind Number.intOfText?

/-- The binary64 number that a text writes, with single underscores ignored. -/
def floatOfText? (s : String) : Option Binary64 :=
  let cs := (Text.trim s).toList
  match Binary64.ofText? (String.ofList cs) with
  | some x => some x
  | none =>
      let groups := Text.splitChars '_' cs
      if groups.length ≤ 1 || groups.any List.isEmpty then none
      else Binary64.ofText? (String.ofList groups.flatten)

/-- A number: an integer or a binary64 number as it is, else what stands for an integer, else the
text of a binary64 number. -/
def number? (v : Value) : Option Number :=
  match v with
  | .int n => some (.int n)
  | .float x => some (.float x)
  | v =>
      match int? v with
      | some n => some (.int n)
      | none => ((text? v).bind floatOfText?).map .float

def items? : Value → Option (List Value)
  | .list items => some items
  | .tuple items => some items
  | .set members => some members
  | _ => none

def texts? (v : Value) : Option (List String) :=
  (items? v).bind fun items => items.mapM text?

def textKeyed? (v : Value) : Option Mapping :=
  match v with
  | .map entries =>
      if entries.all fun e => e.1.text?.isSome then some entries else none
  | _ => none

def any? (v : Value) : Option Value :=
  some v

/-! ## Reading a field -/

/-- The field of a mapping under `key`, or under `other` when `key` is absent; `fallback` stands
for an absent field. -/
def read {α : Type} (d : Mapping) (key other : String) (fallback : Option α)
    (kind : Value → Option α) : Checked α :=
  let check (key : String) (v : Value) : Checked α :=
    match kind v with
    | some a => .ok a
    | none => .bad [key]
  match d.field? key with
  | some v => check key v
  | none =>
      match d.field? other with
      | some v => check other v
      | none =>
          match fallback with
          | some a => .ok a
          | none => .bad [key]

/-- The field of a mapping that may be absent or null. -/
def readOptional {α : Type} (d : Mapping) (key other : String) (kind : Value → Option α) :
    Checked (Option α) :=
  read d key other (some none) (optional kind)

def given {α : Type} (key : String) (v : Value) (kind : Value → Option α) : Checked α :=
  match kind v with
  | some a => .ok a
  | none => .bad [key]

end Field

end Raml
