import Chip8.Board
import Chip8.Proofs.Hoare
import Chip8.Proofs.Sprite
import Mathlib.Algebra.Group.Int.Defs

/-!
# Well-formed boards

The index register, the program counter, the stack pointer, the return stack and the register waited
for are kept as numbers of any size, because a debugger may put any number there. A program leaves
only numbers of their widths in them. This file proves that: no step of the processor leads from a
board with such numbers to one without, not even a step that ends with a fault.

## Main definitions

* `Registers.WellFormed`, `Board.WellFormed`: every number is of its width

## Main statements

* `Registers.push_eq`, `Registers.pop_eq`: what the return stack does on well-formed registers
* `Board.keeps_step`, `Board.keeps_cycle`: a step keeps a board well-formed
-/

namespace Chip8

namespace Registers

/-- The registers hold numbers of their widths. -/
structure WellFormed (r : Registers) : Prop where
  index : 0 ≤ r.index ∧ r.index ≤ 0xFFFF
  pc : 0 ≤ r.pc ∧ r.pc ≤ 0xFFF
  sp : 0 ≤ r.sp ∧ r.sp ≤ 16
  stack : ∀ i, 0 ≤ r.stack.get i ∧ r.stack.get i ≤ 0xFFF

theorem wellFormed_powerUp : WellFormed {} where
  index := by decide
  pc := by decide
  sp := by decide
  stack i := by simp

theorem ofInt_bounds (w : Nat) (n : Int) :
    0 ≤ ((BitVec.ofInt w n).toNat : Int) ∧ ((BitVec.ofInt w n).toNat : Int) < 2 ^ w := by
  have hlt := (BitVec.ofInt w n).isLt
  refine ⟨Int.natCast_nonneg _, ?_⟩
  exact_mod_cast hlt

namespace WellFormed

variable {r : Registers}

theorem setV (h : r.WellFormed) (x : Nibble) (b : Byte) : (r.setV x b).WellFormed :=
  ⟨h.index, h.pc, h.sp, h.stack⟩

theorem setFlag (h : r.WellFormed) (b : Bool) : (r.setFlag b).WellFormed := h.setV _ _

theorem goto (h : r.WellFormed) (target : Int) : (r.goto target).WellFormed := by
  refine ⟨h.index, ?_, h.sp, h.stack⟩
  have hbounds := ofInt_bounds 12 target
  simp only [Registers.goto]
  omega

theorem advance (h : r.WellFormed) : r.advance.WellFormed := h.goto _

theorem skipIf (h : r.WellFormed) (condition : Bool) : (r.skipIf condition).WellFormed := h.goto _

theorem setIndex (h : r.WellFormed) {n : Int} (hn : 0 ≤ n ∧ n ≤ 0xFFFF) :
    { r with index := n }.WellFormed :=
  ⟨hn, h.pc, h.sp, h.stack⟩

theorem calculate (h : r.WellFormed) (operation : Arithmetic) (x y : Nibble) :
    (r.calculate operation x y).WellFormed := by
  cases operation with
  | copy | or | and | xor => exact h.setV _ _
  | add | subtract | shiftRight | subtractFrom | shiftLeft => exact (h.setFlag _).setV _ _

theorem pushed (h : r.WellFormed) (hroom : r.sp < 16) (i : Nibble) {n : Int}
    (hn : 0 ≤ n ∧ n ≤ 0xFFF) : { r with stack := r.stack.set i n, sp := r.sp + 1 }.WellFormed := by
  have hsp := h.sp
  refine ⟨h.index, h.pc, by dsimp only; omega, ?_⟩
  intro j
  have hold := h.stack j
  simp only [Bank.get_set]
  split <;> omega

theorem popped (h : r.WellFormed) (hkept : r.sp ≠ 0) : { r with sp := r.sp - 1 }.WellFormed := by
  have hsp := h.sp
  exact ⟨h.index, h.pc, by dsimp only; omega, h.stack⟩

end WellFormed

/-! ## The return stack -/

theorem place_nibble {n : Int} (h : 0 ≤ n ∧ n < 16) : place 4 n = .ok (BitVec.ofInt 4 n) := by
  refine place_eq_ok_iff.2 ⟨?_, rfl⟩
  have hcount : addressCount 4 = 16 := rfl
  omega

/-- On well-formed registers, a return address is kept if fewer than sixteen are, and nothing
happens otherwise. -/
theorem push_eq {r : Registers} (h : r.WellFormed) (target : Int) :
    r.push target =
      if r.sp < 16 then
        .ok () { r with stack := r.stack.set (BitVec.ofInt 4 r.sp) target, sp := r.sp + 1 }
      else .error (.stackFull r.pc) r := by
  have hsp := h.sp
  have hdepth : stackDepth = 16 := rfl
  by_cases hroom : r.sp < 16
  · have hnotFull : ¬(stackDepth : Int) ≤ r.sp := by omega
    simp only [push, hnotFull, hroom, if_true, if_false, place_nibble ⟨hsp.1, hroom⟩]
  · have hfull : (stackDepth : Int) ≤ r.sp := by omega
    simp only [push, hfull, hroom, if_true, if_false]

/-- On well-formed registers, the last return address is taken back if there is one, and nothing
happens otherwise. -/
theorem pop_eq {r : Registers} (h : r.WellFormed) :
    r.pop =
      if r.sp = 0 then .error (.stackEmpty r.pc) r
      else .ok (r.stack.get (BitVec.ofInt 4 (r.sp - 1))) { r with sp := r.sp - 1 } := by
  have hsp := h.sp
  by_cases hempty : r.sp = 0
  · simp only [pop, hempty, if_true]
  · have hslot : 0 ≤ r.sp - 1 ∧ r.sp - 1 < 16 := by omega
    simp only [pop, hempty, if_false, place_nibble hslot]

end Registers

namespace Board

/-- The board holds numbers of their widths. -/
structure WellFormed (b : Board) : Prop where
  registers : b.registers.WellFormed
  keyRegister : 0 ≤ b.keyWait.register ∧ b.keyWait.register ≤ 0xF

/-- A board whose processor is as it is at power-up is well-formed, whatever its other parts are. -/
theorem wellFormed_of_powerUp {b : Board} (hregisters : b.registers = {})
    (hkeyWait : b.keyWait = {}) :
    b.WellFormed where
  registers := by
    rw [hregisters]
    exact Registers.wellFormed_powerUp
  keyRegister := by
    rw [hkeyWait]
    decide

theorem wellFormed_resetProcessor (b : Board) : b.resetProcessor.WellFormed :=
  wellFormed_of_powerUp rfl rfl

theorem WellFormed.withRegisters {b : Board} (h : b.WellFormed) {r : Registers}
    (hr : r.WellFormed) :
    (b.withRegisters r).WellFormed :=
  ⟨hr, h.keyRegister⟩

theorem foldl_setV_eq (cells : List (Nibble × Byte)) (r : Registers) :
    ∃ v, cells.foldl (fun r (i, byte) => r.setV i byte) r = { r with v } := by
  induction cells generalizing r with
  | nil => exact ⟨r.v, rfl⟩
  | cons cell cells ih =>
    obtain ⟨v, hv⟩ := ih (r.setV cell.1 cell.2)
    exact ⟨v, by rw [List.foldl_cons, hv]; rfl⟩

theorem fillRegisters_eq (r : Registers) (x : Nibble) (bytes : List Byte) :
    ∃ v, fillRegisters r x bytes = { r with v } :=
  foldl_setV_eq _ r

/-! ## One step -/

/-- On a well-formed board, a call keeps the address of the next instruction if there is room for
it. -/
theorem execute_call {b : Board} (hb : b.WellFormed) (target : Address) :
    b.execute (.call target) =
      if b.registers.sp < 16 then
        .ok none (b.withRegisters
          ({ b.registers with
            stack := b.registers.stack.set (BitVec.ofInt 4 b.registers.sp) b.registers.advance.pc
            sp := b.registers.sp + 1 }.goto target.toNat))
      else .error (.stackFull b.registers.pc) b := by
  by_cases hroom : b.registers.sp < 16
  · simp only [execute, Registers.push_eq hb.registers, hroom, if_true]
  · simp only [execute, Registers.push_eq hb.registers, hroom, if_false]
    rfl

/-- On a well-formed board, a return continues at the address kept last if there is one. -/
theorem execute_returnFromCall {b : Board} (hb : b.WellFormed) :
    b.execute .returnFromCall =
      if b.registers.sp = 0 then .error (.stackEmpty b.registers.pc) b
      else .ok none (b.withRegisters
        ({ b.registers with sp := b.registers.sp - 1 }.goto
          (b.registers.stack.get (BitVec.ofInt 4 (b.registers.sp - 1))))) := by
  by_cases hempty : b.registers.sp = 0
  · simp only [execute, Registers.pop_eq hb.registers, hempty, if_true]
    rfl
  · simp only [execute, Registers.pop_eq hb.registers, hempty, if_false]

theorem drawSprite_eq (b : Board) (x y : Byte) (rows : Nat) :
    ∃ hit screen,
      b.screen.draw b.memory b.registers.indexAddress x.toNat y.toNat rows = .ok hit screen ∧
      b.drawSprite x y rows =
        .ok none { b with screen, registers := (b.registers.setFlag hit).advance } := by
  obtain ⟨hit, screen, hdraw, -⟩ :=
    Screen.exists_draw b.screen b.memory b.registers.indexAddress x.toNat y.toNat rows
  exact ⟨hit, screen, hdraw, by rw [drawSprite, hdraw]⟩

/-- An instruction keeps a board well-formed, also one that ends with a fault. -/
theorem keeps_execute (instruction : Instruction) :
    Keeps WellFormed (fun b => b.execute instruction : EStateM Fault Board (Option Remark)) := by
  intro b hb
  have hr := hb.registers
  cases instruction with
  | clearScreen | setDelay | setSound | storeDecimal | spill => exact ⟨hr.advance, hb.keyRegister⟩
  | machineCode | unknown => exact hb.withRegisters hr.advance
  | jump | jumpDisplaced => exact hb.withRegisters (hr.goto _)
  | skipIfByte | skipUnlessByte | skipIfEqual | skipUnlessEqual | skipIfKey | skipUnlessKey =>
    exact hb.withRegisters (hr.skipIf _)
  | loadByte | addByte | readDelay => exact hb.withRegisters (hr.setV _ _).advance
  | arithmetic => exact hb.withRegisters (hr.calculate _ _ _).advance
  | random => exact ⟨(hr.setV _ _).advance, hb.keyRegister⟩
  | loadIndex address =>
    have haddress := address.isLt
    exact hb.withRegisters (hr.setIndex (by omega)).advance
  | loadGlyph x =>
    -- There are no more glyphs than bytes, so that the address of the last one fits.
    have hbyte := (b.registers.v.get x).isLt
    have hglyph : Memory.glyphSize = 5 := rfl
    exact hb.withRegisters (hr.setIndex (by rw [hglyph]; omega)).advance
  | addIndex x =>
    -- The sum is cut to sixteen bits before it is kept.
    have hbounds := Registers.ofInt_bounds 16 (b.registers.index + (b.registers.v.get x).toNat)
    exact hb.withRegisters ((hr.setFlag _).setIndex (by omega)).advance
  | fill x =>
    -- Byte registers are of their width by their type, whatever they were filled with.
    obtain ⟨v, hv⟩ := fillRegisters_eq b.registers x
      (b.memory.slice b.registers.indexAddress (x.toNat + 1))
    have hfilled : { b.registers with v }.WellFormed := ⟨hr.index, hr.pc, hr.sp, hr.stack⟩
    rw [← hv] at hfilled
    exact hb.withRegisters hfilled.advance
  | draw x y rows =>
    obtain ⟨hit, screen, -, heq⟩ :=
      drawSprite_eq b (b.registers.v.get x) (b.registers.v.get y) rows.toNat
    simp only [execute, heq]
    exact ⟨(hr.setFlag hit).advance, hb.keyRegister⟩
  | awaitKey x =>
    simp only [execute]
    cases b.keypad.firstDown with
    | some key => exact hb.withRegisters (hr.setV _ _).advance
    | none =>
      have hregister := x.isLt
      exact ⟨hr.goto _, by dsimp only; omega⟩
  | call target =>
    by_cases hroom : b.registers.sp < 16
    · have hadvance := hr.advance.pc
      simp only [execute_call hb, hroom, if_true]
      exact hb.withRegisters ((hr.pushed hroom _ (by omega)).goto _)
    · simpa only [execute_call hb, hroom, if_false] using hb
  | returnFromCall =>
    by_cases hempty : b.registers.sp = 0
    · simpa only [execute_returnFromCall hb, hempty, if_true] using hb
    · simp only [execute_returnFromCall hb, hempty, if_false]
      exact hb.withRegisters ((hr.popped hempty).goto _)

theorem keeps_pollKey : Keeps WellFormed (pollKey : EStateM Fault Board (Option Remark)) := by
  intro b hb
  have hplace := Registers.place_nibble (n := b.keyWait.register) (by have := hb.keyRegister; omega)
  simp only [pollKey]
  cases b.keypad.firstDown with
  | none => exact hb
  | some key =>
    simp only [hplace]
    exact ⟨(hb.registers.setV _ _).advance, hb.keyRegister⟩

theorem keeps_step : Keeps WellFormed (step : EStateM Fault Board (Option Remark)) := by
  intro b hb
  by_cases hpending : b.keyWait.pending = true
  · simp only [step, hpending, if_true]
    exact keeps_pollKey b hb
  · simp only [step, hpending]
    exact keeps_execute _ b hb

theorem keeps_cycle : Keeps WellFormed (cycle : EStateM Fault Board (Option Remark)) := by
  intro b hb
  have hstep := keeps_step b hb
  simp only [cycle]
  split at hstep
  next remark c heq =>
    rw [heq]
    exact ⟨hstep.registers, hstep.keyRegister⟩
  next fault c heq =>
    rw [heq]
    exact hstep

end Board

end Chip8
