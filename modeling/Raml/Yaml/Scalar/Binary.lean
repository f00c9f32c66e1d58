import Raml.Fault

/-! # Bytes in scalars

Bytes are written in base 64. Characters outside of its alphabet do not count,
and padding ends the text as soon as it completes a group of four.
-/

namespace Raml.Yaml

/-- The value of a character of base 64. -/
def sixBits? (c : Char) : Option Nat :=
  if 'A' ≤ c && c ≤ 'Z' then some (c.toNat - 65)
  else if 'a' ≤ c && c ≤ 'z' then some (c.toNat - 71)
  else if c.isDigit then some (c.toNat + 4)
  else if c = '+' then some 62
  else if c = '/' then some 63
  else none

structure BinaryGroup where
  digits : Nat
  /-- The bits that do not make a byte yet. -/
  bits : Nat
  padding : Nat

/-- The bytes that characters of base 64 write, inside a group. -/
def bytesWithin (g : BinaryGroup) : List Char → Option (List UInt8)
  | [] => if g.digits = 0 then some [] else none
  | c :: rest =>
      if c = '=' then
        if 2 ≤ g.digits then
          if 4 ≤ g.digits + g.padding + 1 then some []
          else bytesWithin { g with padding := g.padding + 1 } rest
        else bytesWithin g rest
      else
        match sixBits? c with
        | none => bytesWithin g rest
        | some n =>
            match g.digits with
            | 0 => bytesWithin ⟨1, n, 0⟩ rest
            | 1 => (bytesWithin ⟨2, n % 16, 0⟩ rest).map (UInt8.ofNat (g.bits * 4 + n / 16) :: ·)
            | 2 => (bytesWithin ⟨3, n % 4, 0⟩ rest).map (UInt8.ofNat (g.bits * 16 + n / 4) :: ·)
            | _ => (bytesWithin ⟨0, 0, 0⟩ rest).map (UInt8.ofNat (g.bits * 64 + n) :: ·)

/-- The bytes that a text writes; it has to be ASCII and to end with a whole group. -/
def binaryOf (s : String) : Except Fault (List UInt8) :=
  match if s.toList.all (·.toNat < 0x80) then bytesWithin ⟨0, 0, 0⟩ s.toList else none with
  | some bytes => .ok bytes
  | none => .error .yaml

end Raml.Yaml
