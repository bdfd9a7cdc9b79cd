import Chip8.Number.Binary64

/-!
# Quantities

Arithmetic over integers of any size and floating-point values together. Integers among themselves
are exact, except that their quotient is the nearest value; an integer that meets a value is first
rounded to one. What has no result is refused with its cause.

## Main definitions

* `Quantity`: an integer or a value
* `Quantity.mul`, `Quantity.div`, `Quantity.floorDiv`: arithmetic
* `Quantity.truncate`: the integer part
-/

namespace Chip8

/-- Why a calculation has no result. -/
inductive ArithmeticError where
  /-- A division by zero. -/
  | divisionByZero
  /-- A floored division by zero. -/
  | floorDivisionByZero
  /-- A quotient of integers that no finite value comes near. -/
  | quotientTooLarge
  /-- An integer that no finite value comes near. -/
  | integerTooLarge
  /-- The integer part of something that is not a number. -/
  | integerOfNan
  /-- The integer part of an infinity. -/
  | integerOfInfinity
  deriving DecidableEq, Repr

namespace ArithmeticError

/-- What is said about a calculation without a result. -/
def message : ArithmeticError → String
  | divisionByZero => "float division by zero"
  | floorDivisionByZero => "float floor division by zero"
  | quotientTooLarge => "integer division result too large for a float"
  | integerTooLarge => "int too large to convert to float"
  | integerOfNan => "cannot convert float NaN to integer"
  | integerOfInfinity => "cannot convert float infinity to integer"

end ArithmeticError

open Binary64 (Value)

/-- An integer or a floating-point value. -/
inductive Quantity where
  | integer (n : Int)
  | real (v : Value)

namespace Quantity

/-- Whether a quantity is at most zero. Not a number is not. -/
def isNonpositive : Quantity → Bool
  | integer n => n ≤ 0
  | real v => v.isNonpositive

/-- The value nearest to a quantity, which must not be infinite if it stands for an integer. -/
def toValue : Quantity → Except ArithmeticError Value
  | real v => .ok v
  | integer n =>
    match round n with
    | .infinite _ => .error .integerTooLarge
    | v => .ok v
where
  round (n : Int) : Value := Binary64.round n

/-- The product. -/
def mul : Quantity → Quantity → Except ArithmeticError Quantity
  | integer m, integer n => .ok (integer (m * n))
  | x, y => do return real ((← x.toValue).mul (← y.toValue))

/-- The value nearest to the quotient of two integers. -/
def integerQuotient (m n : Int) : Except ArithmeticError Value :=
  match Binary64.round (mkRat (m * n.sign) n.natAbs) with
  | .infinite _ => .error .quotientTooLarge
  | v => .ok v

/-- The quotient, which is a value even of two integers. -/
def div : Quantity → Quantity → Except ArithmeticError Quantity
  | integer m, integer n => if n = 0 then .error .divisionByZero
    else return real (← integerQuotient m n)
  | x, y => do
    let v ← x.toValue
    let w ← y.toValue
    if w.isZero then .error .divisionByZero else return real (v.div w)

/-- The floored quotient. -/
def floorDiv : Quantity → Quantity → Except ArithmeticError Quantity
  | integer m, integer n => if n = 0 then .error .floorDivisionByZero else .ok (integer (m.fdiv n))
  | x, y => do
    let v ← x.toValue
    let w ← y.toValue
    if w.isZero then .error .floorDivisionByZero else return real (v.floorDiv w)

/-- The integer part, cut off towards zero. -/
def truncate : Quantity → Except ArithmeticError Int
  | integer n => .ok n
  | real .nan => .error .integerOfNan
  | real (.infinite _) => .error .integerOfInfinity
  | real (.finite q) => .ok (q.num.tdiv q.den)

end Quantity

end Chip8
