/-!
# Ranges of code points

A class of characters is given by the inclusive ranges of its code points.
-/

namespace VarBlock.Text

/-- Whether the code point of `c` lies in one of the ranges. -/
def inRanges (ranges : List (Nat × Nat)) (c : Char) : Bool :=
  ranges.any fun r => r.1 ≤ c.toNat && c.toNat ≤ r.2

end VarBlock.Text
