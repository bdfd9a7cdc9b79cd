import Chip8.Memory

/-!
# Instructions

A sixteen-bit opcode is read as a family, given by its top nibble, and operand fields. What the
family leaves open is decided by the whole opcode (family `0`), by the last nibble (family `8`) or
by the last byte (families `E` and `F`); the other families look at nothing but the operands they
use.

## Main definitions

* `Opcode.family`, `Opcode.x`, `Opcode.y`, `Opcode.n`, `Opcode.nn`, `Opcode.nnn`: the fields
* `Instruction`: the instructions of the console
* `Instruction.ofOpcode`: the instruction that an opcode stands for
-/

namespace Chip8

/-- A sixteen-bit operation code. -/
abbrev Opcode := Word

namespace Opcode

/-- The top nibble. -/
def family (op : Opcode) : Nibble := (op >>> 12).setWidth 4

/-- The second nibble, which mostly names a register. -/
def x (op : Opcode) : Nibble := (op >>> 8).setWidth 4

/-- The third nibble, which mostly names a register. -/
def y (op : Opcode) : Nibble := (op >>> 4).setWidth 4

/-- The last nibble. -/
def n (op : Opcode) : Nibble := op.setWidth 4

/-- The last byte. -/
def nn (op : Opcode) : Byte := op.setWidth 8

/-- The last three nibbles. -/
def nnn (op : Opcode) : Address := op.setWidth 12

end Opcode

/-- The operations of two registers. -/
inductive Arithmetic where
  | copy
  | or
  | and
  | xor
  /-- Sum, with the carry. -/
  | add
  /-- First less second, flagging that the first was the greater. -/
  | subtract
  /-- First halved, flagging the bit shifted out. -/
  | shiftRight
  /-- Second less first, with the same flag as `subtract`. -/
  | subtractFrom
  /-- First doubled, flagging the bit shifted out. -/
  | shiftLeft
  deriving DecidableEq, Repr

/-- The instructions of the console. Registers are named by nibbles. -/
inductive Instruction where
  /-- Darken the screen. -/
  | clearScreen
  /-- Go back to where the last call was made. -/
  | returnFromCall
  /-- A call into the machine code of the processor underneath, which does nothing here. -/
  | machineCode (target : Address)
  | jump (target : Address)
  | call (target : Address)
  | skipIfByte (x : Nibble) (byte : Byte)
  | skipUnlessByte (x : Nibble) (byte : Byte)
  | skipIfEqual (x y : Nibble)
  | skipUnlessEqual (x y : Nibble)
  | loadByte (x : Nibble) (byte : Byte)
  /-- Add a byte, leaving the flag alone. -/
  | addByte (x : Nibble) (byte : Byte)
  | arithmetic (operation : Arithmetic) (x y : Nibble)
  | loadIndex (address : Address)
  /-- Jump to a target displaced by the first register. -/
  | jumpDisplaced (target : Address)
  /-- A random byte, of which only the bits of the mask are kept. -/
  | random (x : Nibble) (mask : Byte)
  /-- Draw a sprite of `rows` rows at the place held in two registers. -/
  | draw (x y rows : Nibble)
  | skipIfKey (x : Nibble)
  | skipUnlessKey (x : Nibble)
  | readDelay (x : Nibble)
  /-- Wait until a key is down and keep its number. -/
  | awaitKey (x : Nibble)
  | setDelay (x : Nibble)
  | setSound (x : Nibble)
  /-- Add a register to the index, flagging a sum past the top of memory. -/
  | addIndex (x : Nibble)
  /-- Point the index at the glyph of a digit. -/
  | loadGlyph (x : Nibble)
  /-- Store the three decimal digits of a register. -/
  | storeDecimal (x : Nibble)
  /-- Store the registers up to `x`. -/
  | spill (x : Nibble)
  /-- Load the registers up to `x`. -/
  | fill (x : Nibble)
  /-- An opcode without a meaning. -/
  | unknown (opcode : Opcode)
  deriving DecidableEq, Repr

namespace Instruction

/-- The operation selected by the last nibble in family `8`. -/
def arithmetic? (n : Nibble) : Option Arithmetic :=
  match n with
  | 0x0 => some .copy
  | 0x1 => some .or
  | 0x2 => some .and
  | 0x3 => some .xor
  | 0x4 => some .add
  | 0x5 => some .subtract
  | 0x6 => some .shiftRight
  | 0x7 => some .subtractFrom
  | 0xE => some .shiftLeft
  | _ => none

/-- The instruction selected by the last byte in family `F`. -/
def miscellaneous? (x : Nibble) (nn : Byte) : Option Instruction :=
  match nn with
  | 0x07 => some (.readDelay x)
  | 0x0A => some (.awaitKey x)
  | 0x15 => some (.setDelay x)
  | 0x18 => some (.setSound x)
  | 0x1E => some (.addIndex x)
  | 0x29 => some (.loadGlyph x)
  | 0x33 => some (.storeDecimal x)
  | 0x55 => some (.spill x)
  | 0x65 => some (.fill x)
  | _ => none

/-- The instruction that an opcode stands for. -/
def ofOpcode (op : Opcode) : Instruction :=
  match op.family with
  | 0x0 => if op = 0x00E0 then .clearScreen else if op = 0x00EE then .returnFromCall
    else .machineCode op.nnn
  | 0x1 => .jump op.nnn
  | 0x2 => .call op.nnn
  | 0x3 => .skipIfByte op.x op.nn
  | 0x4 => .skipUnlessByte op.x op.nn
  | 0x5 => .skipIfEqual op.x op.y
  | 0x6 => .loadByte op.x op.nn
  | 0x7 => .addByte op.x op.nn
  | 0x8 =>
    ((arithmetic? op.n).map fun operation => .arithmetic operation op.x op.y).getD (.unknown op)
  | 0x9 => .skipUnlessEqual op.x op.y
  | 0xA => .loadIndex op.nnn
  | 0xB => .jumpDisplaced op.nnn
  | 0xC => .random op.x op.nn
  | 0xD => .draw op.x op.y op.n
  | 0xE =>
    if op.nn = 0x9E then .skipIfKey op.x else if op.nn = 0xA1 then .skipUnlessKey op.x
      else .unknown op
  | _ => (miscellaneous? op.x op.nn).getD (.unknown op)

end Instruction

end Chip8
