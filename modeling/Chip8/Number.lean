import Chip8.Number.Quantity

/-!
# Numbers

The numbers that frequencies and tones are given by: integers, or floating-point numbers bit for
bit.
-/

namespace Chip8

/-- A number as it was given. -/
inductive Number where
  | integer (n : Int)
  | real (x : Binary64)
  deriving DecidableEq, Repr

namespace Number

/-- What a number stands for in calculations. -/
def quantity : Number → Quantity
  | integer n => .integer n
  | real x => .real x.value

/-- Whether a number is at most zero. Not a number is not. -/
def isNonpositive (x : Number) : Bool := x.quantity.isNonpositive

end Number

end Chip8
