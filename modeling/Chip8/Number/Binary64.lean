/-!
# Binary floating point

Numbers in the sixty-four-bit binary interchange format, with their arithmetic done exactly in the
rationals and rounded once. A finite result is the multiple of the unit in the last place that is
nearest, the even one of two equally near; past the largest finite value it is infinite.

The sign of a zero is not kept: nothing here tells the two zeros apart.

## Main definitions

* `Binary64`: the sixty-four bits
* `Binary64.Value`: what the bits stand for
* `Binary64.round`: the value nearest to a rational
* `Value.add`, `Value.mul`, `Value.div`, `Value.floorDiv`: rounded arithmetic
-/

namespace Chip8

/-- A number in the sixty-four-bit binary interchange format. -/
structure Binary64 where
  bits : BitVec 64
  deriving DecidableEq, Repr

namespace Binary64

/-- What a number in the format stands for. -/
inductive Value where
  | nan
  | infinite (negative : Bool)
  | finite (q : Rat)
  deriving DecidableEq, Repr

/-- Bits of the fraction field. -/
def fractionWidth : Nat := 52

/-- The exponent of the least positive value. -/
def leastExponent : Int := -1074

/-- The exponent that every finite value lies below. -/
def overflowExponent : Nat := 1024

/-- Two to an integer power. -/
def pow2 (e : Int) : Rat :=
  if 0 ≤ e then (Nat.pow 2 e.toNat : Nat) else mkRat 1 (Nat.pow 2 (-e).toNat)

/-- The value that the bits stand for. -/
def value (x : Binary64) : Value :=
  let negative := x.bits.msb
  let exponent := ((x.bits >>> fractionWidth).setWidth 11).toNat
  let fraction := (x.bits.setWidth fractionWidth).toNat
  let sign : Rat := if negative then -1 else 1
  if exponent = 2047 then if fraction = 0 then .infinite negative else .nan
  else if exponent = 0 then .finite (sign * fraction * pow2 leastExponent)
  else .finite
    (sign * (Nat.pow 2 fractionWidth + fraction : Nat) * pow2 (leastExponent + exponent - 1))

/-- The integer nearest to `a / b`, the even one of two equally near. -/
def nearestEven (a b : Nat) : Nat :=
  let q := a / b
  let r := a % b
  if 2 * r < b then q else if b < 2 * r then q + 1 else q + q % 2

/-- The greatest `e` with `2 ^ e ≤ a / b`, for positive `a` and `b`. -/
def quotientLog2 (a b : Nat) : Int :=
  let e := (a.log2 : Int) - b.log2
  if 0 ≤ e then if b * Nat.pow 2 e.toNat ≤ a then e else e - 1
  else if b ≤ a * Nat.pow 2 (-e).toNat then e else e - 1

/-- The exponent of the unit in the last place at magnitude `a / b`. -/
def unitExponent (a b : Nat) : Int := max (quotientLog2 a b - fractionWidth) leastExponent

/-- How many units of two to the power `e` come nearest to `a / b`. -/
def units (a b : Nat) (e : Int) : Nat :=
  if 0 ≤ e then nearestEven a (b * Nat.pow 2 e.toNat)
  else nearestEven (a * Nat.pow 2 (-e).toNat) b

/-- The magnitude nearest to `a / b`, not bounded above. -/
def roundMagnitude (a b : Nat) : Rat :=
  let e := unitExponent a b
  units a b e * pow2 e

/-- The value nearest to a rational. -/
def round (q : Rat) : Value :=
  let m := if q.num = 0 then 0 else roundMagnitude q.num.natAbs q.den
  if (Nat.pow 2 overflowExponent : Nat) ≤ m then .infinite (q.num < 0)
  else .finite (if q.num < 0 then -m else m)

namespace Value

/-- Whether a value is at most zero. Not a number is not. -/
def isNonpositive : Value → Bool
  | nan => false
  | infinite negative => negative
  | finite q => q.num ≤ 0

/-- Whether a value is negative. -/
def isNegative : Value → Bool
  | nan => false
  | infinite negative => negative
  | finite q => q.num < 0

/-- The value with its sign turned. -/
def neg : Value → Value
  | nan => nan
  | infinite negative => infinite !negative
  | finite q => finite (-q)

/-- The rounded sum. -/
def add : Value → Value → Value
  | nan, _ => nan
  | _, nan => nan
  | infinite s, infinite t => if s = t then infinite s else nan
  | infinite s, finite _ => infinite s
  | finite _, infinite t => infinite t
  | finite p, finite q => round (p + q)

/-- The rounded difference. -/
def sub (x y : Value) : Value := x.add y.neg

/-- The rounded product. -/
def mul : Value → Value → Value
  | nan, _ => nan
  | _, nan => nan
  | infinite s, infinite t => infinite (s != t)
  | infinite s, finite q => if q = 0 then nan else infinite (s != decide (q.num < 0))
  | finite p, infinite t => if p = 0 then nan else infinite (t != decide (p.num < 0))
  | finite p, finite q => round (p * q)

/-- The rounded quotient. A quotient by zero is refused by the callers. -/
def div : Value → Value → Value
  | nan, _ => nan
  | _, nan => nan
  | infinite _, infinite _ => nan
  | infinite s, finite q => infinite (s != decide (q.num < 0))
  | finite _, infinite _ => finite 0
  | finite p, finite q => round (p / q)

/-- The greatest integral value that is not above a value. -/
def floor : Value → Value
  | finite q => finite q.floor
  | x => x

/-- The remainder of the division whose quotient is cut off towards zero. It is exact. -/
def remainder : Value → Value → Value
  | nan, _ => nan
  | _, nan => nan
  | infinite _, _ => nan
  | finite p, infinite _ => finite p
  | finite p, finite q =>
    if q = 0 then nan
    else
      let quotient := p / q
      finite (p - q * (Int.tdiv quotient.num quotient.den : Int))

/-- Whether a value is zero. -/
def isZero (x : Value) : Bool := x = finite 0

/-- The floored quotient, taken from the exact remainder: what is left of the dividend is divided
and rounded, and the result, which is within one rounding of an integer, is brought to that
integer. -/
def floorDiv (x y : Value) : Value :=
  let r := remainder x y
  let quotient := (x.sub r).div y
  let quotient := if !r.isZero && y.isNegative != r.isNegative then quotient.sub (finite 1)
    else quotient
  if quotient.isZero then finite 0
  else
    let down := quotient.floor
    match quotient.sub down with
    | finite rest => if mkRat 1 2 < rest then down.add (finite 1) else down
    | _ => down

end Value

end Binary64

end Chip8
