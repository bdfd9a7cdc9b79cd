import Chip8.Board
import Chip8.Proofs.Encoding

/-!
# Opcodes outside the instruction table

Decoding looks at no more of an opcode than it takes to tell the instructions apart. So an opcode
without a row in the instruction table need not be one without a meaning: in the families `5` and
`9` the last digit is not looked at, and every opcode there is read as the one that ends with zero.
This file says what a step does when it finds an opcode without a row.

## Main definitions

* `Board.Skips`: the opcode at the program counter is read as a comparison that skips
* `Board.movedOn`: the board with the program counter moved on and all else as it was

## Main statements

* `Instruction.ofOpcode_cases_of_no_row`: how an opcode without a row is read
* `Instruction.opcode?_of_ofOpcode_eq`: which instructions are read only from their own opcodes
* `Board.step_no_row`: what a step does that finds one
* `Board.not_all_passed_over`: not every one of them is passed over
-/

namespace Chip8

namespace Opcode

theorem eq_target (op : Opcode) : op = op.family ++ op.nnn := by
  refine BitVec.eq_of_getLsbD_eq fun i hi => ?_
  simp only [family, nnn, BitVec.getLsbD_append, BitVec.getLsbD_setWidth,
    BitVec.getLsbD_ushiftRight]
  grind

/-- What is left of the opcodes when the families are taken away whose last digits are all
operands. -/
theorem family_cases (op : Opcode) :
    op.family ∈ [0x1, 0x2, 0x3, 0x4, 0x6, 0x7, 0xA, 0xB, 0xC, 0xD] ∨
      (op.family = 0x0 ∨ op.family = 0x8 ∨ op.family = 0xE ∨ op.family = 0xF) ∨
      op.family = 0x5 ∨ op.family = 0x9 := by
  generalize op.family = f
  revert f
  decide

end Opcode

namespace Instruction

/-- In the families whose last digits are all operands, every opcode has a row. -/
theorem opcode?_ofOpcode {op : Opcode}
    (hfamily : op.family ∈ [0x1, 0x2, 0x3, 0x4, 0x6, 0x7, 0xA, 0xB, 0xC, 0xD]) :
    (ofOpcode op).opcode? = some op := by
  simp only [List.mem_cons, List.not_mem_nil, or_false] at hfamily
  rcases hfamily with hf | hf | hf | hf | hf | hf | hf | hf | hf | hf
  -- The families with one address, the one with three operands, and those with a register and a
  -- byte.
  case inl | inr.inl | inr.inr.inr.inr.inr.inr.inl | inr.inr.inr.inr.inr.inr.inr.inl =>
    conv_rhs => rw [Opcode.eq_target op, hf]
    rw [ofOpcode, hf]
    rfl
  case inr.inr.inr.inr.inr.inr.inr.inr.inr =>
    conv_rhs => rw [Opcode.eq_pair op, hf]
    rw [ofOpcode, hf]
    rfl
  all_goals
    conv_rhs => rw [Opcode.eq_byte op, hf]
    rw [ofOpcode, hf]
    rfl

/-- An opcode without a row is passed over, as a call into machine code or as an opcode without a
meaning, or else it compares two registers. -/
theorem ofOpcode_cases_of_no_row {op : Opcode}
    (hrow : ∀ instruction : Instruction, instruction.opcode? ≠ some op) :
    (op.family ≠ 0x5 ∧ op.family ≠ 0x9) ∧
        (ofOpcode op = machineCode op.nnn ∨ ofOpcode op = unknown op) ∨
      op.family = 0x5 ∧ ofOpcode op = skipIfEqual op.x op.y ∨
      op.family = 0x9 ∧ ofOpcode op = skipUnlessEqual op.x op.y := by
  rcases op.family_cases with hlisted | hopen | hequal | hunequal
  · exact absurd (opcode?_ofOpcode hlisted) (hrow _)
  · left
    refine ⟨?_, ofOpcode_of_no_row hopen hrow⟩
    rcases hopen with hf | hf | hf | hf <;> rw [hf] <;> decide
  · right; left
    refine ⟨hequal, ?_⟩
    rw [ofOpcode, hequal]
    rfl
  · right; right
    refine ⟨hunequal, ?_⟩
    rw [ofOpcode, hunequal]
    rfl

/-- An opcode that is read as an instruction with another opcode has no row. -/
theorem no_row_of_opcode?_ne {op : Opcode} (h : (ofOpcode op).opcode? ≠ some op)
    (instruction : Instruction) : instruction.opcode? ≠ some op := by
  intro hrow
  rw [ofOpcode_eq hrow] at h
  exact h hrow

/-- An instruction that is neither passed over nor a comparison of two registers is read only from
its own opcode. -/
theorem opcode?_of_ofOpcode_eq {op : Opcode} {instruction : Instruction}
    (hread : ofOpcode op = instruction) (hmachine : ∀ target, instruction ≠ machineCode target)
    (hunknown : ∀ op, instruction ≠ unknown op) (hequal : ∀ x y, instruction ≠ skipIfEqual x y)
    (hunequal : ∀ x y, instruction ≠ skipUnlessEqual x y) : instruction.opcode? = some op := by
  by_contra hne
  subst hread
  rcases ofOpcode_cases_of_no_row (no_row_of_opcode?_ne hne) with
    ⟨-, hother | hother⟩ | ⟨-, hother⟩ | ⟨-, hother⟩
  · exact hmachine _ hother
  · exact hunknown _ hother
  · exact hequal _ _ hother
  · exact hunequal _ _ hother

end Instruction

namespace Board

/-- The opcode at the program counter compares two registers, as far as its family tells, and the
next instruction is to be skipped for what they hold. -/
def Skips (b : Board) : Prop :=
  b.opcode.family = 0x5 ∧ b.v b.opcode.x = b.v b.opcode.y ∨
    b.opcode.family = 0x9 ∧ b.v b.opcode.x ≠ b.v b.opcode.y

instance (b : Board) : Decidable b.Skips := inferInstanceAs (Decidable (_ ∨ _))

/-- The board with the program counter moved on, and all else as it was. -/
def movedOn (b : Board) (bytes : Int) : Board :=
  b.withRegisters { b.registers with pc := (b.registers.pc + bytes) % 4096 }

theorem withRegisters_goto (b : Board) (bytes : Int) :
    b.withRegisters (b.registers.goto (b.registers.pc + bytes)) = b.movedOn bytes := by
  have hpc : ((BitVec.ofInt 12 (b.registers.pc + bytes)).toNat : Int) =
      (b.registers.pc + bytes) % 4096 := by
    rw [BitVec.toNat_ofInt]
    omega
  rw [Registers.goto, hpc]
  rfl

/-- **Opcodes outside the instruction table**: whatever the board holds, as long as it does not wait
for a key, a step that finds an opcode without a row ends well and changes the program counter only.
It goes on to the next instruction, unless the opcode is one of family `5` or `9`, which is read as
the comparison of two registers that the table has for the last digit zero, and skips the next
instruction as that one does. -/
theorem step_no_row (b : Board) (hready : b.keyWait.pending = false)
    (hrow : ∀ instruction : Instruction, instruction.opcode? ≠ some b.opcode) :
    ∃ remark, b.step = .ok remark (b.movedOn (if b.Skips then 4 else 2)) := by
  have hstep : b.step = b.execute (.ofOpcode b.opcode) := by
    rw [step, hready]
    rfl
  have hskip (c : Bool) (hc : c = true ↔ b.Skips) :
      b.withRegisters (b.registers.skipIf c) = b.movedOn (if b.Skips then 4 else 2) := by
    cases c with
    | true => rw [if_pos (hc.1 rfl), ← withRegisters_goto]; rfl
    | false => rw [if_neg (fun h => by simpa using hc.2 h), ← withRegisters_goto]; rfl
  rcases Instruction.ofOpcode_cases_of_no_row hrow with
    ⟨⟨hne5, hne9⟩, hover⟩ | ⟨hf, hequal⟩ | ⟨hf, hunequal⟩
  · have hnot : ¬b.Skips := by
      rintro (⟨hf, -⟩ | ⟨hf, -⟩)
      · exact hne5 hf
      · exact hne9 hf
    rw [if_neg hnot, ← withRegisters_goto]
    rcases hover with hmachine | hunknown
    · exact ⟨_, by rw [hstep, hmachine]; rfl⟩
    · exact ⟨_, by rw [hstep, hunknown]; rfl⟩
  · refine ⟨none, ?_⟩
    rw [hstep, hequal, ← hskip (b.v b.opcode.x == b.v b.opcode.y)]
    · rfl
    · simp [Skips, hf]
  · refine ⟨none, ?_⟩
    rw [hstep, hunequal, ← hskip (b.v b.opcode.x != b.v b.opcode.y)]
    · rfl
    · simp [Skips, hf]

/-- A board that finds `5011` and holds equal registers. -/
def comparing : Board where
  memory := (Memory.powerUp.write 0x200 0x50).write 0x201 0x11
  random := .listed [] 0

theorem opcode_comparing : comparing.opcode = 0x5011 := by
  show ((Memory.powerUp.write 0x200 0x50).write 0x201 0x11).opcodeAt 0x200 = 0x5011
  simp [Memory.opcodeAt, Memory.read_write]

theorem no_row_comparing (instruction : Instruction) :
    instruction.opcode? ≠ some comparing.opcode := by
  rw [opcode_comparing]
  exact Instruction.no_row_of_opcode?_ne (by decide) instruction

theorem skips_comparing : comparing.Skips := by
  rw [Skips, opcode_comparing]
  exact Or.inl ⟨by decide, rfl⟩

/-- `5011` with equal registers is read as `5010`. -/
theorem step_no_row_comparing :
    ∃ remark, comparing.step = .ok remark (comparing.movedOn 4) := by
  have hstep := step_no_row comparing rfl no_row_comparing
  rwa [if_pos skips_comparing] at hstep

/-- Not every opcode without a row is passed over: `5011` can skip the next instruction. -/
theorem not_all_passed_over :
    ¬∀ b : Board, b.keyWait.pending = false →
      (∀ instruction : Instruction, instruction.opcode? ≠ some b.opcode) →
        ∃ remark, b.step = .ok remark (b.movedOn 2) := by
  intro hall
  obtain ⟨remark, hover⟩ := hall comparing rfl no_row_comparing
  have hread : Instruction.ofOpcode comparing.opcode = .skipIfEqual 0 1 := by
    rw [opcode_comparing]
    decide
  have hstep : comparing.step =
      .ok none (comparing.withRegisters (comparing.registers.skipIf true)) := by
    have hready : comparing.keyWait.pending = false := rfl
    rw [step, hready, hread]
    rfl
  rw [hstep] at hover
  obtain ⟨-, hboard⟩ := EStateM.Result.ok.inj hover
  have hpc : ((comparing.registers.skipIf true).pc) = (comparing.registers.pc + 2) % 4096 :=
    congrArg (fun b : Board => b.registers.pc) hboard
  exact absurd hpc (by decide)

end Board

end Chip8
