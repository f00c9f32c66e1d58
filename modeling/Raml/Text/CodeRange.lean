/-! # Ranges of code points

A character property is stored as an ascending list of inclusive ranges of code
points.
-/

namespace Raml.Text

def inRanges (ranges : List (Nat × Nat)) (c : Char) : Bool :=
  ranges.any fun r => r.1 ≤ c.toNat && c.toNat ≤ r.2

end Raml.Text
