/-!
# Sets of characters given by ranges
-/

namespace Chip8.Text

/-- Whether a character lies in one of a list of inclusive ranges of code points. -/
def inRanges (ranges : List (Nat × Nat)) (c : Char) : Bool :=
  ranges.any fun (first, last) => first ≤ c.toNat && c.toNat ≤ last

end Chip8.Text
