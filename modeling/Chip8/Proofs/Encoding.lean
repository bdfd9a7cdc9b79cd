import Chip8.Instruction
import Mathlib.Tactic.Common

/-!
# The instruction table

An opcode is decoded in stages, first by its top nibble and then by whatever that leaves open. The
instruction table says the same the other way around: each instruction has its opcode, with the
operands in their places. This file proves that decoding finds an instruction wherever the table
puts one.

## Main definitions

* `Instruction.opcode?`: the opcode of an instruction, if it has a row in the table

## Main statements

* `Instruction.ofOpcode_eq`: decoding finds the instruction whose opcode it is
* `Instruction.ofOpcode_of_no_row`: in the families that are decoded further, an opcode without a
  row is passed over
-/

namespace Chip8

namespace Opcode

/-! ## Fields of an opcode put together from parts -/

theorem family_target (f : Nibble) (t : Address) : family (f ++ t) = f := by
  ext i hi
  simp only [family, BitVec.getElem_setWidth, BitVec.getLsbD_ushiftRight, BitVec.getLsbD_append]
  grind

theorem nnn_target (f : Nibble) (t : Address) : nnn (f ++ t) = t := by
  ext i hi
  simp only [nnn, BitVec.getElem_setWidth, BitVec.getLsbD_append]
  grind

theorem family_byte (f x : Nibble) (b : Byte) : family (f ++ x ++ b) = f := by
  ext i hi
  simp only [family, BitVec.getElem_setWidth, BitVec.getLsbD_ushiftRight, BitVec.getLsbD_append]
  grind

theorem x_byte (f x : Nibble) (b : Byte) : Opcode.x (f ++ x ++ b) = x := by
  ext i hi
  simp only [Opcode.x, BitVec.getElem_setWidth, BitVec.getLsbD_ushiftRight, BitVec.getLsbD_append]
  grind

theorem nn_byte (f x : Nibble) (b : Byte) : nn (f ++ x ++ b) = b := by
  ext i hi
  simp only [nn, BitVec.getElem_setWidth, BitVec.getLsbD_append]
  grind

theorem family_pair (f x y n : Nibble) : family (f ++ x ++ y ++ n) = f := by
  ext i hi
  simp only [family, BitVec.getElem_setWidth, BitVec.getLsbD_ushiftRight, BitVec.getLsbD_append]
  grind

theorem x_pair (f x y n : Nibble) : Opcode.x (f ++ x ++ y ++ n) = x := by
  ext i hi
  simp only [Opcode.x, BitVec.getElem_setWidth, BitVec.getLsbD_ushiftRight, BitVec.getLsbD_append]
  grind

theorem y_pair (f x y n : Nibble) : Opcode.y (f ++ x ++ y ++ n) = y := by
  ext i hi
  simp only [Opcode.y, BitVec.getElem_setWidth, BitVec.getLsbD_ushiftRight, BitVec.getLsbD_append]
  grind

theorem n_pair (f x y n : Nibble) : Opcode.n (f ++ x ++ y ++ n) = n := by
  ext i hi
  simp only [Opcode.n, BitVec.getElem_setWidth, BitVec.getLsbD_append]
  grind

theorem eq_byte (op : Opcode) : op = op.family ++ op.x ++ op.nn := by
  refine BitVec.eq_of_getLsbD_eq fun i hi => ?_
  simp only [family, Opcode.x, nn, BitVec.getLsbD_append, BitVec.getLsbD_setWidth,
    BitVec.getLsbD_ushiftRight]
  grind

theorem eq_pair (op : Opcode) : op = op.family ++ op.x ++ op.y ++ op.n := by
  refine BitVec.eq_of_getLsbD_eq fun i hi => ?_
  simp only [family, Opcode.x, Opcode.y, Opcode.n, BitVec.getLsbD_append, BitVec.getLsbD_setWidth,
    BitVec.getLsbD_ushiftRight]
  grind

end Opcode

/-- The last digit of the opcodes of an operation. -/
def Arithmetic.digit : Arithmetic → Nibble
  | copy => 0x0
  | or => 0x1
  | and => 0x2
  | xor => 0x3
  | add => 0x4
  | subtract => 0x5
  | shiftRight => 0x6
  | subtractFrom => 0x7
  | shiftLeft => 0xE

namespace Instruction

/-- The opcode that the instruction table gives for an instruction. Calls into machine code and
opcodes without a meaning have no row in the table. -/
def opcode? : Instruction → Option Opcode
  | clearScreen => some 0x00E0
  | returnFromCall => some 0x00EE
  | machineCode _ => none
  | jump target => some (0x1#4 ++ target)
  | call target => some (0x2#4 ++ target)
  | skipIfByte x byte => some (0x3#4 ++ x ++ byte)
  | skipUnlessByte x byte => some (0x4#4 ++ x ++ byte)
  | skipIfEqual x y => some (0x5#4 ++ x ++ y ++ 0x0#4)
  | skipUnlessEqual x y => some (0x9#4 ++ x ++ y ++ 0x0#4)
  | loadByte x byte => some (0x6#4 ++ x ++ byte)
  | addByte x byte => some (0x7#4 ++ x ++ byte)
  | arithmetic operation x y => some (0x8#4 ++ x ++ y ++ operation.digit)
  | loadIndex address => some (0xA#4 ++ address)
  | jumpDisplaced target => some (0xB#4 ++ target)
  | random x mask => some (0xC#4 ++ x ++ mask)
  | draw x y rows => some (0xD#4 ++ x ++ y ++ rows)
  | skipIfKey x => some (0xE#4 ++ x ++ 0x9E#8)
  | skipUnlessKey x => some (0xE#4 ++ x ++ 0xA1#8)
  | readDelay x => some (0xF#4 ++ x ++ 0x07#8)
  | awaitKey x => some (0xF#4 ++ x ++ 0x0A#8)
  | setDelay x => some (0xF#4 ++ x ++ 0x15#8)
  | setSound x => some (0xF#4 ++ x ++ 0x18#8)
  | addIndex x => some (0xF#4 ++ x ++ 0x1E#8)
  | loadGlyph x => some (0xF#4 ++ x ++ 0x29#8)
  | storeDecimal x => some (0xF#4 ++ x ++ 0x33#8)
  | spill x => some (0xF#4 ++ x ++ 0x55#8)
  | fill x => some (0xF#4 ++ x ++ 0x65#8)
  | unknown _ => none

theorem arithmetic?_digit (operation : Arithmetic) :
    arithmetic? operation.digit = some operation := by
  cases operation <;> rfl

/-- Decoding finds the instruction whose opcode it is. -/
theorem ofOpcode_eq {instruction : Instruction} {op : Opcode} (h : instruction.opcode? = some op) :
    ofOpcode op = instruction := by
  cases instruction with
  | machineCode | unknown => cases h
  | clearScreen | returnFromCall =>
    cases h
    rfl
  | jump target | call target | loadIndex target | jumpDisplaced target =>
    cases h
    rw [ofOpcode, Opcode.family_target, Opcode.nnn_target]
    rfl
  | skipIfByte x byte | skipUnlessByte x byte | loadByte x byte | addByte x byte | random x byte =>
    cases h
    rw [ofOpcode, Opcode.family_byte, Opcode.x_byte, Opcode.nn_byte]
    rfl
  | skipIfEqual x y | skipUnlessEqual x y =>
    cases h
    rw [ofOpcode, Opcode.family_pair, Opcode.x_pair, Opcode.y_pair]
    rfl
  | draw x y rows =>
    cases h
    rw [ofOpcode, Opcode.family_pair, Opcode.x_pair, Opcode.y_pair, Opcode.n_pair]
    rfl
  | arithmetic operation x y =>
    cases h
    rw [ofOpcode, Opcode.family_pair, Opcode.x_pair, Opcode.y_pair, Opcode.n_pair,
      arithmetic?_digit]
    rfl
  | skipIfKey x | skipUnlessKey x | readDelay x | awaitKey x | setDelay x | setSound x | addIndex x
  | loadGlyph x | storeDecimal x | spill x | fill x =>
    cases h
    rw [ofOpcode, Opcode.family_byte, Opcode.x_byte, Opcode.nn_byte]
    rfl

theorem digit_of_arithmetic? {n : Nibble} {operation : Arithmetic}
    (h : arithmetic? n = some operation) : n = operation.digit := by
  unfold arithmetic? at h
  split at h <;> cases h <;> rfl

theorem opcode?_of_miscellaneous? {x : Nibble} {nn : Byte} {instruction : Instruction}
    (h : miscellaneous? x nn = some instruction) :
    instruction.opcode? = some (0xF#4 ++ x ++ nn) := by
  unfold miscellaneous? at h
  split at h <;> cases h <;> rfl

/-- In the families that are decoded further, an opcode without a row in the table is passed over,
as a call into machine code or as an opcode without a meaning. -/
theorem ofOpcode_of_no_row {op : Opcode}
    (hfamily : op.family = 0x0 ∨ op.family = 0x8 ∨ op.family = 0xE ∨ op.family = 0xF)
    (hrow : ∀ instruction : Instruction, instruction.opcode? ≠ some op) :
    ofOpcode op = machineCode op.nnn ∨ ofOpcode op = unknown op := by
  rcases hfamily with hf | hf | hf | hf
  · left
    have hclear : op ≠ 0x00E0 := fun heq => hrow clearScreen (congrArg some heq.symm)
    have hreturn : op ≠ 0x00EE := fun heq => hrow returnFromCall (congrArg some heq.symm)
    rw [ofOpcode, hf]
    exact (if_neg hclear).trans (if_neg hreturn)
  · right
    rw [ofOpcode, hf]
    cases hdigit : arithmetic? op.n with
    | none => rfl
    | some operation =>
      refine absurd ?_ (hrow (arithmetic operation op.x op.y))
      rw [opcode?, ← digit_of_arithmetic? hdigit]
      conv_rhs => rw [Opcode.eq_pair op, hf]
      rfl
  · right
    rw [ofOpcode, hf]
    have hdown : op.nn ≠ 0x9E := by
      intro heq
      refine hrow (skipIfKey op.x) ?_
      conv_rhs => rw [Opcode.eq_byte op, hf, heq]
      rfl
    have hup : op.nn ≠ 0xA1 := by
      intro heq
      refine hrow (skipUnlessKey op.x) ?_
      conv_rhs => rw [Opcode.eq_byte op, hf, heq]
      rfl
    exact (if_neg hdown).trans (if_neg hup)
  · right
    rw [ofOpcode, hf]
    cases hfound : miscellaneous? op.x op.nn with
    | none => simp
    | some instruction =>
      refine absurd ?_ (hrow instruction)
      rw [opcode?_of_miscellaneous? hfound]
      conv_rhs => rw [Opcode.eq_byte op, hf]
      rfl

end Instruction

end Chip8
