import Chip8.Text.Hexadecimal
import Chip8.Text.Printable

/-!
# Quoted display of a text

A text is shown between single quotes, or between double quotes if it has single quotes and no
double ones. Backslashes and the quote in use are escaped by a backslash, tabs and line ends by a
letter, and other characters that are not printable by their code point in two, four or eight
hexadecimal digits.

## Main definitions

* `quoted`: a text between quotes
-/

namespace Chip8.Text

/-- The single quote. -/
def singleQuote : Char := Char.ofNat 0x27

/-- The double quote. -/
def doubleQuote : Char := Char.ofNat 0x22

/-- The quote to show a text between. -/
def quoteFor (cs : List Char) : Char :=
  if cs.contains singleQuote && !cs.contains doubleQuote then doubleQuote else singleQuote

/-- One character as it is shown between quotes. -/
def escape (quote c : Char) : List Char :=
  if c = quote || c = '\\' then ['\\', c]
  else if c = '\t' then ['\\', 't']
  else if c = '\n' then ['\\', 'n']
  else if c = '\r' then ['\\', 'r']
  else if isPrintable c then [c]
  else if c.toNat ≤ 0xFF then '\\' :: 'x' :: hexLower 2 c.toNat
  else if c.toNat ≤ 0xFFFF then '\\' :: 'u' :: hexLower 4 c.toNat
  else '\\' :: 'U' :: hexLower 8 c.toNat

/-- A text as it is shown between quotes. -/
def quoted (cs : List Char) : List Char :=
  let quote := quoteFor cs
  quote :: cs.flatMap (escape quote) ++ [quote]

end Chip8.Text
