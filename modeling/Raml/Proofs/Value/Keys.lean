import Mathlib.Data.Option.Basic
import Raml.Proofs.General.Table
import Raml.Proofs.Number.Sizes
import Raml.Value.Basic

/-! # Equality of keys

The keys of a mapping are numbers, texts, moments and the like, or tuples of
them; collections are none. Among keys equality of values is symmetric and
transitive, whatever the other side is: what holds no other values is equal to
another by a token, and tuples are equal item by item. A text is equal only to
itself.
-/

namespace Raml

/-! ## Tokens -/

/-- What a value that holds no others is recognised by. -/
inductive Value.Token
  | null
  | text (s : String)
  | bytes (b : List UInt8)
  | date (d : Date)
  | instant (zoned : Bool) (micros : Int)
  | number (size : Number.Size)
  | object (identity : Nat)

namespace Value

def token? : Value → Option Token
  | .null => some .null
  | .text s => some (.text s)
  | .bytes b => some (.bytes b)
  | .date d => some (.date d)
  | .instant t => some (.instant t.offset.isSome t.micros)
  | .float (.notNumber i) => i.map .object
  | v => (v.numeric?.bind Number.size?).map .number

theorem map_number_inj (o o' : Option Number.Size) :
    o.map Token.number = o'.map Token.number ↔ o = o' :=
  ⟨fun h => Option.map_injective (fun _ _ => Token.number.inj) h, fun h => h ▸ rfl⟩

theorem map_number_eq_map_object (o : Option Number.Size) (i : Option Nat) :
    o.map Token.number = i.map Token.object ↔ i = none ∧ o = none := by
  cases o <;> cases i <;> simp

attribute [local simp] numeric? sameScalar same sameItems

/-- What holds no other values is equal exactly to what has the same token. -/
theorem sameScalar_iff (a b : Value) :
    sameScalar a b = true ↔ a.token? = b.token? ∧ a.token? ≠ none := by
  have hobject (i : Option Nat) (o : Option Number.Size) :
      i.map Token.object = o.map Token.number ↔ o = none ∧ i = none :=
    eq_comm.trans ((map_number_eq_map_object o i).trans and_comm)
  -- a float is split further: what is no number is told by its identity, not by its size
  rcases a with _ | _ | _ | (i | _ | _) | _ | _ | _ | _ | _ | _ | _ | _ | _ <;>
    rcases b with _ | _ | _ | (j | _ | _) | _ | _ | _ | _ | _ | _ | _ | _ | _ <;>
    simp [token?, Number.same_iff, Instant.same, map_number_inj, map_number_eq_map_object,
      hobject]
  cases i <;> cases j <;> simp

/-! ## Keys -/

/-- Whether the value neither holds other values nor is a collection. -/
def isPlain : Value → Bool
  | .list _ | .tuple _ | .map _ | .set _ | .embedded _ => false
  | _ => true

inductive Keyable : Value → Prop
  | plain {v : Value} (h : v.isPlain = true) : Keyable v
  | tuple {items : List Value} (h : ∀ v ∈ items, Keyable v) : Keyable (.tuple items)
  | embedded {schema : Value} (h : Keyable schema) : Keyable (.embedded schema)

theorem same_of_isPlain {a : Value} (h : a.isPlain = true) (b : Value) :
    same a b = sameScalar a b := by
  cases a <;> simp only [isPlain, Bool.false_eq_true] at h <;> cases b <;> simp only [same]

theorem token?_isPlain {b : Value} {t : Token} (h : b.token? = some t) : b.isPlain = true := by
  cases b <;> first | rfl | simp [token?] at h

theorem same_iff_token? {a : Value} (ha : a.isPlain = true) (b : Value) :
    same a b = true ↔ a.token? = b.token? ∧ a.token? ≠ none := by
  rw [same_of_isPlain ha, sameScalar_iff]

theorem same_tuple_iff (xs : List Value) (b : Value) :
    same (.tuple xs) b = true ↔ ∃ ys, b = .tuple ys ∧ sameItems xs ys = true := by
  cases b <;> simp

theorem same_embedded_iff (v b : Value) :
    same (.embedded v) b = true ↔ ∃ w, b = .embedded w ∧ same v w = true := by
  cases b <;> simp

theorem sameItems_symm {xs : List Value}
    (h : ∀ v ∈ xs, ∀ w, same v w = true → same w v = true) {ys : List Value}
    (hs : sameItems xs ys = true) : sameItems ys xs = true := by
  induction xs generalizing ys with
  | nil => cases ys <;> simp_all
  | cons x xs ih =>
      cases ys with
      | nil => simp at hs
      | cons y ys =>
          simp only [sameItems, Bool.and_eq_true] at hs ⊢
          exact ⟨h x (by simp) y hs.1, ih (fun v hv => h v (by simp [hv])) hs.2⟩

theorem sameItems_trans {xs : List Value}
    (h : ∀ v ∈ xs, ∀ w u, same v w = true → same w u = true → same v u = true)
    {ys zs : List Value} (hs : sameItems xs ys = true) (hs' : sameItems ys zs = true) :
    sameItems xs zs = true := by
  induction xs generalizing ys zs with
  | nil => cases ys <;> simp_all
  | cons x xs ih =>
      cases ys with
      | nil => simp at hs
      | cons y ys =>
          cases zs with
          | nil => simp at hs'
          | cons z zs =>
              simp only [sameItems, Bool.and_eq_true] at hs hs' ⊢
              exact ⟨h x (by simp) y z hs.1 hs'.1, ih (fun v hv => h v (by simp [hv])) hs.2 hs'.2⟩

theorem Keyable.same_symm {a : Value} (ha : Keyable a) :
    ∀ {b : Value}, same a b = true → same b a = true := by
  induction ha with
  | plain hp =>
      intro b h
      obtain ⟨heq, hne⟩ := (same_iff_token? hp b).1 h
      obtain ⟨t, ht⟩ := Option.ne_none_iff_exists'.1 (heq ▸ hne)
      exact (same_iff_token? (token?_isPlain ht) _).2 ⟨heq.symm, heq ▸ hne⟩
  | tuple _ ih =>
      intro b h
      obtain ⟨ys, rfl, hs⟩ := (same_tuple_iff _ b).1 h
      exact (same_tuple_iff ys _).2 ⟨_, rfl, sameItems_symm (fun v hv w => ih v hv) hs⟩
  | embedded _ ih =>
      intro b h
      obtain ⟨w, rfl, hs⟩ := (same_embedded_iff _ b).1 h
      exact (same_embedded_iff w _).2 ⟨_, rfl, ih hs⟩

theorem Keyable.same_trans {a : Value} (ha : Keyable a) :
    ∀ {b c : Value}, same a b = true → same b c = true → same a c = true := by
  induction ha with
  | plain hp =>
      intro b c h h'
      obtain ⟨heq, hne⟩ := (same_iff_token? hp b).1 h
      obtain ⟨t, ht⟩ := Option.ne_none_iff_exists'.1 (heq ▸ hne)
      obtain ⟨heq', _⟩ := (same_iff_token? (token?_isPlain ht) c).1 h'
      exact (same_iff_token? hp c).2 ⟨heq.trans heq', hne⟩
  | tuple _ ih =>
      intro b c h h'
      obtain ⟨ys, rfl, hs⟩ := (same_tuple_iff _ b).1 h
      obtain ⟨zs, rfl, hs'⟩ := (same_tuple_iff _ c).1 h'
      exact (same_tuple_iff _ _).2
        ⟨zs, rfl, sameItems_trans (fun v hv w u => ih v hv) hs hs'⟩
  | embedded _ ih =>
      intro b c h h'
      obtain ⟨w, rfl, hs⟩ := (same_embedded_iff _ b).1 h
      obtain ⟨u, rfl, hs'⟩ := (same_embedded_iff _ c).1 h'
      exact (same_embedded_iff _ _).2 ⟨u, rfl, ih hs hs'⟩

theorem Keyable.regular {k : Value} (hk : Keyable k) : Table.Regular k where
  symm := hk.same_symm
  trans := hk.same_trans

/-! ## Texts as keys -/

@[simp] theorem beq_text (v : Value) (s : String) : (v == .text s) = true ↔ v = .text s := by
  show same v (.text s) = true ↔ _
  cases v <;> simp

@[simp] theorem text_beq (s : String) (v : Value) : (.text s == v) = true ↔ v = .text s := by
  show same (.text s) v = true ↔ _
  cases v <;> simp
  exact eq_comm

theorem coherent_text (a b : Value) (s : String) : Table.Coherent a b (.text s) where
  left hab hb := by
    obtain rfl := (beq_text b s).1 hb
    exact hab
  right hab ha := by
    obtain rfl := (beq_text a s).1 ha
    simpa using hab
  outer hb ha := by
    obtain rfl := (beq_text b s).1 hb
    exact ha

end Value

end Raml
