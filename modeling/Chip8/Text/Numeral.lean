import Chip8.Text.Blank
import Chip8.Text.DecimalDigit

/-!
# Reading integers

A numeral is an optional sign and one or more digits of its base, with single underscores allowed
between digits. Decimal digits of every script count as digits, letters only in ASCII. In base
sixteen the digits may follow `0x`, and then an underscore may stand before the first of them.
Blanks around the whole are passed over. Decimal numerals are limited in length.

## Main definitions

* `readDigits`: digits with underscores between them
* `readInteger`: the whole of a text as an integer
-/

namespace Chip8.Text

/-- The most digits a decimal numeral may have. -/
def maxDecimalDigits : Nat := 4300

/-- Whether a character may surround a numeral. The information separators of ASCII may not. -/
def isNumeralBlank (c : Char) : Bool := isBlank c && !(0x1C ≤ c.toNat && c.toNat ≤ 0x1F)

/-- A character in the plain form that numerals are read in: digits of any script as ASCII digits,
and blanks as spaces. -/
def plain (c : Char) : Char :=
  if isNumeralBlank c then ' '
  else match decimalDigit? c with
    | some d => Nat.digitChar d
    | none => c

/-- The value of an ASCII digit or letter as a digit. -/
def digitValue? (c : Char) : Option Nat :=
  if '0' ≤ c ∧ c ≤ '9' then some (c.toNat - '0'.toNat)
  else if 'a' ≤ c ∧ c ≤ 'z' then some (c.toNat - 'a'.toNat + 10)
  else if 'A' ≤ c ∧ c ≤ 'Z' then some (c.toNat - 'A'.toNat + 10)
  else none

/-- The value of a digit that exists in a base. -/
def digitIn? (base : Nat) (c : Char) : Option Nat := (digitValue? c).filter (· < base)

/-- The value of one or more digits with single underscores between them, after digits worth
`value`. -/
def readDigits (base value : Nat) : List Char → Option Nat
  | [] => none
  | [c] => (digitIn? base c).map (value * base + ·)
  | c :: '_' :: cs => (digitIn? base c).bind fun d => readDigits base (value * base + d) cs
  | c :: cs => (digitIn? base c).bind fun d => readDigits base (value * base + d) cs

/-- The digits after an optional `0x`, with the underscore that may follow it. -/
def dropHexMarker : List Char → List Char
  | '0' :: x :: '_' :: cs => if x = 'x' ∨ x = 'X' then cs else '0' :: x :: '_' :: cs
  | '0' :: x :: cs => if x = 'x' ∨ x = 'X' then cs else '0' :: x :: cs
  | cs => cs

/-- The value of an unsigned numeral. -/
def readNatural (base : Nat) (cs : List Char) : Option Nat :=
  if base = 16 then readDigits 16 0 (dropHexMarker cs)
  else if (cs.filter (· ≠ '_')).length ≤ maxDecimalDigits then readDigits base 0 cs
  else none

/-- The value of a numeral with an optional sign. -/
def readSigned (base : Nat) : List Char → Option Int
  | '-' :: cs => (readNatural base cs).map fun n => -(n : Int)
  | '+' :: cs => (readNatural base cs).map fun n => (n : Int)
  | cs => (readNatural base cs).map fun n => (n : Int)

/-- The value of a text that is a numeral between blanks. -/
def readInteger (base : Nat) (cs : List Char) : Option Int :=
  readSigned base (trimBy (· = ' ') (cs.map plain))

end Chip8.Text
