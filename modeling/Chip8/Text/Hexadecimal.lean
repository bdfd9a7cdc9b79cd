/-!
# Hexadecimal numbers as text

Numbers are filled up with zeros to a width, between the sign and the digits if there is a sign. A
number that is wider is shown whole.

## Main definitions

* `hexLower`, `hexUpper`: natural numbers
* `hexLowerSigned`, `hexUpperSigned`: integers
-/

namespace Chip8.Text

/-- A number in lower-case hexadecimal, filled up with zeros to a width. -/
def hexLower (width n : Nat) : List Char := (Nat.toDigits 16 n).leftpad width '0'

/-- A number in upper-case hexadecimal, filled up with zeros to a width. -/
def hexUpper (width n : Nat) : List Char := (hexLower width n).map Char.toUpper

/-- An integer by a rendering of natural numbers to a width, of which a sign takes one place. -/
def signed (digits : Nat → Nat → List Char) (width : Nat) (n : Int) : List Char :=
  if n < 0 then '-' :: digits (width - 1) n.natAbs else digits width n.natAbs

/-- An integer in lower-case hexadecimal, filled up with zeros to a width. -/
def hexLowerSigned (width : Nat) (n : Int) : List Char := signed hexLower width n

/-- An integer in upper-case hexadecimal, filled up with zeros to a width. -/
def hexUpperSigned (width : Nat) (n : Int) : List Char := signed hexUpper width n

end Chip8.Text
