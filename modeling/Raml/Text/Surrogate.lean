/-! # Halves of surrogate pairs

A text holds whole characters only. Where a document writes half of a surrogate
pair alone, a stand-in is read for it: one of the last 2048 characters, which
are for private use. Different halves have different stand-ins.
-/

namespace Raml.Text

def isHalf (code : Nat) : Bool :=
  0xD800 ≤ code && code < 0xE000

/-- The character of a code, a stand-in for half of a surrogate pair. -/
def charOfCode (code : Nat) : Char :=
  Char.ofNat (if isHalf code then code + 0x102000 else code)

def isStandIn (c : Char) : Bool :=
  0x10F800 ≤ c.toNat

def codeOf (c : Char) : Nat :=
  if isStandIn c then c.toNat - 0x102000 else c.toNat

/-- Below the stand-ins a code is told by the character that is read for it. -/
theorem codeOf_charOfCode {code : Nat} (h : code < 0x10F800) : codeOf (charOfCode code) = code := by
  have htoNat {n : Nat} (hn : n.isValidChar) : (Char.ofNat n).toNat = n := by
    rw [Char.ofNat, dif_pos hn]
    rfl
  unfold codeOf isStandIn charOfCode
  cases hhalf : isHalf code with
  | true =>
      obtain ⟨hleast, hmost⟩ : 0xD800 ≤ code ∧ code < 0xE000 := by simpa [isHalf] using hhalf
      rw [if_pos rfl, htoNat (.inr ⟨by omega, by omega⟩), if_pos (by simp; omega)]
      omega
  | false =>
      have hvalid : code.isValidChar := by
        have hwhole : 0xD800 ≤ code → 0xE000 ≤ code := by simpa [isHalf] using hhalf
        unfold Nat.isValidChar
        omega
      rw [if_neg Bool.false_ne_true, htoNat hvalid, if_neg (by simp; omega)]

end Raml.Text
