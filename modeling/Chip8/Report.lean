import Chip8.Board
import Chip8.HexRange

/-!
# Reports

The registers and ranges of memory as text.

## Main definitions

* `Report.registers`: the registers of a board
* `Report.dump`: ranges of memory
-/

namespace Chip8.Report

/-- Registers in one line of a report. -/
def registersPerLine : Nat := 4

/-- Bytes in one line of a dump. -/
def bytesPerLine : Nat := 16

/-- One byte register. -/
def register (b : Board) (x : Nibble) : String :=
  "V" ++ String.ofList (Text.hexUpper 1 x.toNat) ++ " = 0x" ++
    String.ofList (Text.hexLower 2 (b.v x).toNat)

/-- The line that shows the four registers from `first` on. -/
def registerLine (b : Board) (first : Nat) : String :=
  ", ".intercalate ((List.range registersPerLine).map
    fun k => register b (BitVec.ofNat 4 (first + k)))

/-- A word as a report shows it. -/
def word (n : Int) : String := "0x" ++ String.ofList (Text.hexLowerSigned 4 n)

/-- The cycle count and all registers. -/
def registers (b : Board) : String :=
  let r := b.registers
  "\n".intercalate <|
    s!"Cycles #{b.cycles}" ::
    s!"PC = {word r.pc}, SP = {r.sp}, I = {word r.index}" ::
    (List.range registersPerLine).map fun k => registerLine b (k * registersPerLine)

/-- An address label: at least three characters wide, counting a sign. -/
def label (n : Int) : List Char := Text.hexUpperSigned 3 n

/-- One line of a dump: the label of the first address, and the bytes from there on. -/
def dumpLine (m : Memory) (first : Int) (count : Nat) : List Char :=
  label first ++ ':' :: ' ' ::
    [' '].intercalate ((m.slice (BitVec.ofInt 12 first) count).map fun b => Text.hexUpper 2 b.toNat)

/-- The lines that show the `count` bytes from an address on. -/
def dumpLines (m : Memory) (first : Int) (count : Nat) : List (List Char) :=
  (List.range ((count + bytesPerLine - 1) / bytesPerLine)).map fun (k : Nat) =>
    dumpLine m (first + bytesPerLine * k) (min bytesPerLine (count - bytesPerLine * k))

/-- The lines that show ranges of addresses, one range after the other. -/
def dumpRanges (m : Memory) (ranges : List (Int × Int)) : List (List Char) :=
  ranges.flatMap fun (first, last) => dumpLines m first (last + 1 - first).toNat

/-- Ranges given by any two numbers, as text. -/
def dumpText (m : Memory) (ranges : List (Int × Int)) : String :=
  "\n".intercalate ((dumpRanges m ranges).map String.ofList)

/-- Ranges of memory as text. -/
def dump (m : Memory) (ranges : List HexRange) : String :=
  dumpText m (ranges.map fun r => (r.first.toNat, r.last.toNat))

end Chip8.Report
