import Chip8.Memory
import Chip8.Text.Lower
import Chip8.Text.Numeral
import Chip8.Text.Quoted

/-!
# Addresses and ranges in hexadecimal

A range of memory is written as two hexadecimal addresses with a colon between them, and includes
both.

## Main definitions

* `HexRange.readAddress`: a text as an address
* `HexRange.ofString`: a text as a range
-/

namespace Chip8

/-- Why a text is not an address. -/
inductive AddressError where
  /-- There is nothing in it. -/
  | empty
  /-- It is not a hexadecimal numeral. The text is kept as it was looked at. -/
  | malformed (text : List Char)
  /-- Memory has no such address. -/
  | outOfRange
  deriving DecidableEq, Repr

/-- Why a text is not a range. -/
inductive RangeError where
  | noSeparator
  | address (cause : AddressError)
  /-- The end lies before the start. -/
  | reversed
  deriving DecidableEq, Repr

/-- A range of addresses, both ends included. -/
structure HexRange where
  first : Address
  last : Address
  deriving DecidableEq, Repr

namespace AddressError

/-- How much of the display of a malformed text is shown. -/
def shownLength : Nat := 200

/-- What is said about a text that is not an address. -/
def message : AddressError → String
  | empty => "empty hexadecimal value"
  | malformed text =>
    "invalid literal for int() with base 16: " ++
      String.ofList ((Text.quoted text).take shownLength)
  | outOfRange => "hex value out of range"

end AddressError

namespace RangeError

/-- What is said about a text that is not a range. -/
def message : RangeError → String
  | noSeparator => "range specification must contain ':'"
  | address cause => cause.message
  | reversed => "range end must be >= start"

end RangeError

namespace HexRange

/-- A text in lower case, without the blanks around it and one leading `0x`. -/
def trim (text : List Char) : List Char :=
  match Text.lower (Text.strip text) with
  | '0' :: 'x' :: cs => cs
  | cs => cs

/-- The address that a text denotes. -/
def readAddress (text : List Char) : Except AddressError Address :=
  let digits := trim text
  if digits.isEmpty then .error .empty
  else match Text.readInteger 16 digits with
    | none => .error (.malformed digits)
    | some n => if 0 ≤ n ∧ n < Memory.size then .ok (BitVec.ofInt 12 n) else .error .outOfRange

/-- The range that a text denotes: what stands before the first colon, and what stands after it. -/
def ofChars (text : List Char) : Except RangeError HexRange :=
  match text.span (· ≠ ':') with
  | (_, []) => .error .noSeparator
  | (before, _ :: after) => do
    let first ← (readAddress before).mapError .address
    let last ← (readAddress after).mapError .address
    if last < first then .error .reversed else .ok ⟨first, last⟩

/-- The range that a text denotes. -/
def ofString (text : String) : Except RangeError HexRange := ofChars text.toList

end HexRange

end Chip8
