import Chip8.Proofs.Unlisted
import Chip8.Proofs.WellFormed

/-!
# Faults of the return stack

On a well-formed board, the only steps that fail are a return with nothing on the return stack and a
call with no room on it. Every other instruction ends well, whatever its operands are and wherever
its addresses point. A step that fails leaves the board as it was.

## Main definitions

* `Board.Faults`: the next instruction fails with a fault

## Main statements

* `Board.exists_ok_of_execute`: no instruction but a return and a call can fail
* `Board.step_eq_error_iff`: when a step fails, with which fault, and what it leaves behind
-/

namespace Chip8

namespace Instruction

theorem ofOpcode_eq_returnFromCall_iff {op : Opcode} :
    ofOpcode op = returnFromCall ↔ op = 0x00EE := by
  constructor
  · intro hread
    exact (Option.some.inj (opcode?_of_ofOpcode_eq hread nofun nofun nofun nofun)).symm
  · rintro rfl
    rfl

theorem ofOpcode_eq_call_iff {op : Opcode} {target : Address} :
    ofOpcode op = call target ↔ op = 0x2#4 ++ target := by
  constructor
  · intro hread
    exact (Option.some.inj (opcode?_of_ofOpcode_eq hread nofun nofun nofun nofun)).symm
  · rintro rfl
    exact ofOpcode_eq rfl

end Instruction

namespace Board

variable {b : Board}

/-- The next instruction fails: the processor does not wait for a key, and the opcode at the program
counter is a return with an empty return stack or a call with a full one. -/
def Faults (b : Board) (fault : Fault) : Prop :=
  b.keyWait.pending = false ∧
    (b.opcode = 0x00EE ∧ b.registers.sp = 0 ∧ fault = .stackEmpty b.registers.pc ∨
      (∃ target : Address, b.opcode = 0x2#4 ++ target) ∧ b.registers.sp = 16 ∧
        fault = .stackFull b.registers.pc)

/-- An instruction that is neither a return nor a call ends well. -/
theorem exists_ok_of_execute (b : Board) {instruction : Instruction}
    (hreturn : instruction ≠ .returnFromCall) (hcall : ∀ target, instruction ≠ .call target) :
    ∃ remark c, b.execute instruction = .ok remark c := by
  cases instruction with
  | returnFromCall => exact absurd rfl hreturn
  | call target => exact absurd rfl (hcall target)
  | draw x y rows =>
    obtain ⟨hit, screen, -, heq⟩ :=
      drawSprite_eq b (b.registers.v.get x) (b.registers.v.get y) rows.toNat
    exact ⟨none, _, heq⟩
  | awaitKey x =>
    simp only [execute]
    cases b.keypad.firstDown with
    | some key => exact ⟨none, _, rfl⟩
    | none => exact ⟨_, _, rfl⟩
  | _ => exact ⟨_, _, rfl⟩

theorem exists_ok_of_pollKey (hb : b.WellFormed) : ∃ c, b.pollKey = .ok none c := by
  have hplace := Registers.place_nibble (n := b.keyWait.register) (by have := hb.keyRegister; omega)
  simp only [pollKey]
  cases b.keypad.firstDown with
  | none => exact ⟨b, rfl⟩
  | some key =>
    simp only [hplace]
    exact ⟨_, rfl⟩

/-- On a well-formed board, an instruction that fails leaves the board as it was, and is a return or
a call. -/
theorem execute_eq_error_iff (hb : b.WellFormed) {instruction : Instruction} {fault : Fault}
    {c : Board} :
    b.execute instruction = .error fault c ↔
      c = b ∧
        (instruction = .returnFromCall ∧ b.registers.sp = 0 ∧ fault = .stackEmpty b.registers.pc ∨
        (∃ target, instruction = .call target) ∧ b.registers.sp = 16 ∧
          fault = .stackFull b.registers.pc) := by
  have hsp := hb.registers.sp
  by_cases hreturn : instruction = .returnFromCall
  · subst hreturn
    rw [execute_returnFromCall hb]
    by_cases hempty : b.registers.sp = 0
    · simp [hempty, eq_comm, and_comm]
    · simp [hempty]
  by_cases hcall : ∃ target, instruction = .call target
  · obtain ⟨target, rfl⟩ := hcall
    rw [execute_call hb]
    by_cases hroom : b.registers.sp < 16
    · have hne : b.registers.sp ≠ 16 := by omega
      simp [hroom, hne]
    · have hfull : b.registers.sp = 16 := by omega
      simp [hfull, eq_comm, and_comm]
  · obtain ⟨remark, d, hok⟩ := exists_ok_of_execute b hreturn (not_exists.1 hcall)
    simp [hok, hreturn, hcall]

/-- **Only the return stack makes a step fail**, and a step that fails leaves the board as it
was. -/
theorem step_eq_error_iff (hb : b.WellFormed) {fault : Fault} {c : Board} :
    b.step = .error fault c ↔ c = b ∧ b.Faults fault := by
  by_cases hpending : b.keyWait.pending = true
  · obtain ⟨d, hok⟩ := exists_ok_of_pollKey hb
    simp [step, Faults, hpending, hok]
  · have hready : b.keyWait.pending = false := by simpa using hpending
    have hstep : b.step = b.execute (.ofOpcode b.opcode) := by
      rw [step, hready]
      rfl
    rw [hstep, execute_eq_error_iff hb, Faults]
    simp only [hready, true_and, Instruction.ofOpcode_eq_returnFromCall_iff,
      Instruction.ofOpcode_eq_call_iff]

theorem cycle_eq_error_iff (hb : b.WellFormed) {fault : Fault} {c : Board} :
    b.cycle = .error fault c ↔ c = b ∧ b.Faults fault := by
  rw [← step_eq_error_iff hb, cycle]
  cases b.step with
  | ok remark d => simp
  | error e d => simp

end Board

end Chip8
