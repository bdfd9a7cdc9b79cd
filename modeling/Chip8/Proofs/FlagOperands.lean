import Chip8.Proofs.InstructionSet

/-!
# Operations that read the flag register

An operation that flags its result writes the flag first and reads its operands again after it. So
the flag is that of the bytes which the registers held before the instruction, but an operand that
is the flag register itself enters the result as the new flag, whatever it held before. The
instruction table leaves that open; this file says what such an operation leaves in every register,
whichever registers its operands are.

## Main definitions

* `Arithmetic.sources`: the registers that an operation reads for its result
* `Registers.operand`: what is read from a register once the flag is written

## Main statements

* `Registers.calculate_of_flag?`: the operations that flag their result, in one equation
* `Registers.value_operand_eq_iff`: when an operand that is the flag register does no harm
* `Board.step_flagged`: what a step leaves that finds such an operation
* `Board.not_operands_before`: the result need not be that of the bytes held before
-/

namespace Chip8

namespace Arithmetic

/-- The registers that an operation reads for its result. -/
def sources (operation : Arithmetic) (x y : Nibble) : List Nibble :=
  match operation with
  | copy => [y]
  | shiftRight | shiftLeft => [x]
  | or | and | xor | add | subtract | subtractFrom => [x, y]

/-- The result is made of what is read from the sources, and of nothing else. -/
theorem value_congr {operation : Arithmetic} {x y : Nibble} {f g : Nibble → Byte}
    (h : ∀ z ∈ operation.sources x y, f z = g z) :
    operation.value (f x) (f y) = operation.value (g x) (g y) := by
  cases operation with
  | copy => exact h y (List.mem_singleton_self y)
  | shiftRight | shiftLeft =>
    have hx : f x = g x := h x (List.mem_singleton_self x)
    simp only [value, hx]
  | or | and | xor | add | subtract | subtractFrom =>
    have hx : f x = g x := h x List.mem_cons_self
    have hy : f y = g y := h y (List.mem_cons_of_mem x (List.mem_singleton_self y))
    rw [hx, hy]

/-- A sum or a difference tells apart the bytes that one of its operands may be. -/
theorem value_inj {operation : Arithmetic} {x y : Nibble} (hflag : operation.flag?.isSome = true)
    (hsources : operation.sources x y = [x, y]) (a b c : Byte) :
    (operation.value a c = operation.value b c ↔ a = b) ∧
      (operation.value c a = operation.value c b ↔ a = b) := by
  cases operation with
  | copy | or | and | xor => cases hflag
  | shiftRight | shiftLeft => cases hsources
  | add => exact ⟨BitVec.add_left_inj c, BitVec.add_right_inj c⟩
  | subtract | subtractFrom =>
    simp only [value]
    exact ⟨by bv_omega, by bv_omega⟩

end Arithmetic

namespace Registers

/-- What is read from a register once the flag is written. -/
def operand (r : Registers) (c : Bool) (z : Nibble) : Byte :=
  if z = flag then flagByte c else r.v.get z

theorem operand_flag (r : Registers) (c : Bool) : r.operand c flag = flagByte c := if_pos rfl

theorem operand_of_ne (r : Registers) (c : Bool) {z : Nibble} (hz : z ≠ flag) :
    r.operand c z = r.v.get z := if_neg hz

theorem get_setFlag (r : Registers) (c : Bool) (z : Nibble) :
    (r.setFlag c).v.get z = r.operand c z := by
  have hview : (r.setFlag c).v.get z = Function.update r.view.v flag (flagByte c) z :=
    congrFun (congrArg RegisterView.v (r.view_setFlag c)) z
  rw [hview, Function.update_apply]
  rfl

/-- Every operation that flags its result writes the flag of what the registers hold, and then the
result of what is read from them after that. -/
theorem calculate_of_flag? (r : Registers) {operation : Arithmetic} {f : Byte → Byte → Bool}
    (hflag : operation.flag? = some f) (x y : Nibble) {c : Bool}
    (hc : c = f (r.v.get x) (r.v.get y)) :
    r.calculate operation x y =
      (r.setFlag c).setV x (operation.value (r.operand c x) (r.operand c y)) := by
  subst hc
  rw [← get_setFlag, ← get_setFlag]
  cases operation with
  | copy | or | and | xor => cases hflag
  | add | shiftRight | shiftLeft =>
    cases hflag
    rfl
  | subtract | subtractFrom =>
    cases hflag
    simp only [calculate, Board.flag_subtract]
    rfl

/-- What the byte registers hold after an operation that flags its result. -/
theorem get_calculate (r : Registers) {operation : Arithmetic} {f : Byte → Byte → Bool}
    (hflag : operation.flag? = some f) (x y : Nibble) {c : Bool}
    (hc : c = f (r.v.get x) (r.v.get y)) (z : Nibble) :
    (r.calculate operation x y).v.get z =
      if x = z then operation.value (r.operand c x) (r.operand c y) else r.operand c z := by
  rw [r.calculate_of_flag? hflag x y hc, get_setV, get_setFlag]

/-- Where just one of two operands is the flag register, the result is that of the bytes held before
if the register held the new flag already, and only then. -/
theorem value_operand_eq_iff (r : Registers) {operation : Arithmetic} {x y : Nibble}
    (hflag : operation.flag?.isSome = true) (hsources : operation.sources x y = [x, y])
    (hone : x = flag ∧ y ≠ flag ∨ x ≠ flag ∧ y = flag) (c : Bool) :
    operation.value (r.operand c x) (r.operand c y) = operation.value (r.v.get x) (r.v.get y) ↔
      r.v.get flag = flagByte c := by
  rcases hone with ⟨rfl, hy⟩ | ⟨hx, rfl⟩
  · rw [operand_flag, operand_of_ne r c hy, (Arithmetic.value_inj hflag hsources _ _ _).1, eq_comm]
  · rw [operand_flag, operand_of_ne r c hx, (Arithmetic.value_inj hflag hsources _ _ _).2, eq_comm]

end Registers

namespace Board

/-- **Operations that flag their result**: whatever the board holds, as long as it does not wait for
a key, and whichever registers are the operands, a step that finds such an operation ends well and
changes two byte registers at most, besides the program counter. The flag is that of the bytes held
before, unless the result takes its place. The result is that of the bytes held before too if the
flag register is none of the sources; a source that is the flag register enters it as the new
flag. -/
theorem step_flagged (b : Board) (hready : b.keyWait.pending = false) {operation : Arithmetic}
    {f : Byte → Byte → Bool} (hflag : operation.flag? = some f) {x y : Nibble}
    (hopcode : (Instruction.arithmetic operation x y).opcode? = some b.opcode) :
    ∃ d, b.step = .ok none d ∧
      d = b.withRegisters { b.registers with v := d.registers.v }.advance ∧
      (∀ z, z ≠ x → z ≠ Registers.flag → d.v z = b.v z) ∧
      (x ≠ Registers.flag → d.v Registers.flag = flagByte (f (b.v x) (b.v y))) ∧
      d.v x = operation.value (b.registers.operand (f (b.v x) (b.v y)) x)
        (b.registers.operand (f (b.v x) (b.v y)) y) ∧
      (Registers.flag ∉ operation.sources x y → d.v x = operation.value (b.v x) (b.v y)) := by
  let d := b.withRegisters (b.registers.calculate operation x y).advance
  have hd (z : Nibble) : d.v z = _ := b.registers.get_calculate hflag x y rfl z
  refine ⟨d, step_of_opcode? hready hopcode, ?_, ?_, ?_, ?_, ?_⟩
  · have hothers : b.registers.calculate operation x y =
        { b.registers with v := (b.registers.calculate operation x y).v } := by
      rw [b.registers.calculate_of_flag? hflag x y rfl]
      rfl
    exact congrArg (fun r => b.withRegisters r.advance) hothers
  · intro z hzx hzf
    rw [hd, if_neg hzx.symm]
    exact b.registers.operand_of_ne _ hzf
  · intro hx
    rw [hd, if_neg hx]
    exact b.registers.operand_flag _
  · rw [hd, if_pos rfl]
    rfl
  · intro hsources
    rw [hd, if_pos rfl]
    apply Arithmetic.value_congr
    intro z hz
    refine b.registers.operand_of_ne _ ?_
    rintro rfl
    exact hsources hz

/-- A board that is to add the flag register, which holds five, to the first register, which holds
three. -/
def addingFlag : Board where
  registers := { v := ((Bank.fill 0).set 0 3).set Registers.flag 5 }
  memory := (Memory.powerUp.write 0x200 0x80).write 0x201 0xF4
  random := .listed [] 0

theorem opcode_addingFlag :
    (Instruction.arithmetic .add 0 Registers.flag).opcode? = some addingFlag.opcode := by
  have hopcode : addingFlag.opcode = 0x80F4 := by
    show ((Memory.powerUp.write 0x200 0x80).write 0x201 0xF4).opcodeAt 0x200 = 0x80F4
    simp [Memory.opcodeAt, Memory.read_write]
  rw [hopcode]
  rfl

theorem v_addingFlag : addingFlag.v 0 = 3 ∧ addingFlag.v Registers.flag = 5 := by
  simp [addingFlag, v, Bank.get_set, Registers.flag]

/-- Three and five need no carry, so that three and no carry are added. -/
theorem step_flagged_addingFlag :
    addingFlag.keyWait.pending = false ∧
      ∃ d, addingFlag.step = .ok none d ∧ d.v 0 = 3 ∧ d.v Registers.flag = 0 := by
  obtain ⟨hfirst, hsecond⟩ := v_addingFlag
  have hadd : Arithmetic.add.flag? = some _ := rfl
  obtain ⟨d, hstep, -, -, hflag, hresult, -⟩ := step_flagged addingFlag rfl hadd opcode_addingFlag
  have hoperand (c : Bool) : addingFlag.registers.operand c 0 = 3 :=
    (Registers.operand_of_ne _ c (by decide)).trans hfirst
  refine ⟨rfl, d, hstep, ?_, ?_⟩
  · rw [hresult, hfirst, hsecond, hoperand, Registers.operand_flag]
    decide
  · rw [hflag (by decide), hfirst, hsecond]
    decide

/-- The result need not be that of the bytes held before. -/
theorem not_operands_before :
    ¬∀ (b : Board) (operation : Arithmetic) (f : Byte → Byte → Bool) (x y : Nibble),
      b.keyWait.pending = false → operation.flag? = some f →
      (Instruction.arithmetic operation x y).opcode? = some b.opcode →
        ∃ d, b.step = .ok none d ∧ d.v x = operation.value (b.v x) (b.v y) ∧
          (x ≠ Registers.flag → d.v Registers.flag = flagByte (f (b.v x) (b.v y))) ∧
          ∀ z, z ≠ x → z ≠ Registers.flag → d.v z = b.v z := by
  intro hall
  obtain ⟨hfirst, hsecond⟩ := v_addingFlag
  have hadd : Arithmetic.add.flag? = some _ := rfl
  obtain ⟨d, hstep, hresult, -⟩ := hall addingFlag .add _ 0 Registers.flag rfl hadd
    opcode_addingFlag
  rw [step_of_opcode? rfl opcode_addingFlag] at hstep
  cases hstep
  change (addingFlag.registers.calculate .add 0 Registers.flag).v.get 0 = _ at hresult
  rw [Registers.get_calculate _ hadd 0 Registers.flag rfl, if_pos rfl] at hresult
  -- The sum is right only if the flag register held the carry already, and five is no carry.
  have hkept : addingFlag.v Registers.flag = flagByte _ :=
    (addingFlag.registers.value_operand_eq_iff rfl rfl (Or.inr ⟨by decide, rfl⟩) _).1 hresult
  have hnever : ∀ c, (5 : Byte) ≠ flagByte c := by decide
  exact hnever _ (hsecond ▸ hkept)

end Board

end Chip8
