import Chip8.Proofs.InstructionSet

/-!
# Spilling and filling

Registers are spilled to consecutive bytes of memory, from the address in the index register on, and
filled from there again. Addresses go around at the top of memory, so sixteen of them in a row are
still sixteen different ones: whatever the index register holds, each register has a byte of its
own, as far from the first one as the register is from the first register.

## Main definitions

* `Registers.slot`: the byte of memory that a register is spilled to
* `Board.Spilled`, `Board.Filled`: what the two instructions leave

## Main statements

* `Registers.toNat_slot_sub`, `Registers.slot_toNat_sub`: slots by their distance from the first one
* `Board.exists_spill`, `Board.exists_fill`: a step that finds one of the two instructions
* `Board.fill_of_spill`: filling takes back what was spilled
-/

namespace Chip8

namespace Registers

/-- The byte of memory that a register is spilled to and filled from. -/
def slot (r : Registers) (j : Nibble) : Address := BitVec.ofInt 12 (r.index + j.toNat)

theorem slot_eq (r : Registers) (j : Nibble) : r.slot j = r.indexAddress + j.setWidth 12 := by
  rw [slot, indexAddress, BitVec.ofInt_add, Board.ofInt_toNat_setWidth]

theorem toNat_slot_sub (r : Registers) (j : Nibble) :
    (r.slot j - r.indexAddress).toNat = j.toNat := by
  have hj := j.isLt
  rw [slot_eq]
  bv_omega

theorem slot_toNat_sub (r : Registers) {a : Address} (hnear : (a - r.indexAddress).toNat < 16) :
    r.slot (BitVec.ofNat 4 (a - r.indexAddress).toNat) = a := by
  rw [slot_eq]
  bv_omega

end Registers

namespace Board

variable {b c d : Board} {x : Nibble}

/-- What a spill leaves: each register up to `x` in its slot, and all else as it was but for the
program counter. -/
structure Spilled (b : Board) (x : Nibble) (c : Board) : Prop where
  kept : ∀ j ≤ x, c.memory.read (b.registers.slot j) = b.v j
  frame : ∀ a, (∀ j ≤ x, a ≠ b.registers.slot j) → c.memory.read a = b.memory.read a
  others : c = { b with memory := c.memory, registers := b.registers.advance }

/-- What a fill leaves: in each register up to `x` what its slot holds, and all else as it was but
for the program counter. -/
structure Filled (d : Board) (x : Nibble) (e : Board) : Prop where
  taken : ∀ j ≤ x, e.v j = d.memory.read (d.registers.slot j)
  frame : ∀ j, x < j → e.v j = d.v j
  others : e = d.withRegisters { d.registers with v := e.registers.v }.advance

theorem exists_spill (hready : b.keyWait.pending = false)
    (hopcode : (Instruction.spill x).opcode? = some b.opcode) :
    ∃ c, b.step = .ok none c ∧ Spilled b x c := by
  have hstep : b.step = b.execute (.spill x) := step_of_opcode? hready hopcode
  obtain ⟨remark, c, hexecute, hsnapshot⟩ := b.performs_spill x
  have hcells (a : Address) : c.memory.read a =
      if (a - b.registers.indexAddress).toNat ≤ x.toNat then
        b.v (BitVec.ofNat 4 (a - b.registers.indexAddress).toNat)
      else b.memory.read a := by
    have hmemory := congrFun (congrArg Snapshot.memory hsnapshot) a
    rw [← indexAddress_snapshot]
    exact hmemory
  cases hexecute
  refine ⟨_, hstep, ?_, ?_, rfl⟩
  · intro j hj
    rw [hcells, Registers.toNat_slot_sub, if_pos (BitVec.le_def.1 hj), BitVec.ofNat_toNat,
      BitVec.setWidth_eq]
  · intro a hfar
    rw [hcells, if_neg]
    intro hnear
    have hx := x.isLt
    refine hfar (BitVec.ofNat 4 (a - b.registers.indexAddress).toNat) (by bv_omega) ?_
    exact (b.registers.slot_toNat_sub (by omega)).symm

theorem exists_fill (hready : d.keyWait.pending = false)
    (hopcode : (Instruction.fill x).opcode? = some d.opcode) :
    ∃ e, d.step = .ok none e ∧ Filled d x e := by
  have hstep : d.step = d.execute (.fill x) := step_of_opcode? hready hopcode
  obtain ⟨remark, e, hexecute, hsnapshot⟩ := d.performs_fill x
  have hcells (j : Nibble) : e.v j = if j ≤ x then d.memory.read (d.registers.slot j)
    else d.v j := by
    have hv := congrFun (congrArg (fun s : Snapshot => s.v) hsnapshot) j
    rw [Registers.slot_eq, ← indexAddress_snapshot]
    exact hv
  cases hexecute
  refine ⟨_, hstep, ?_, ?_, ?_⟩
  · intro j hj
    rw [hcells, if_pos hj]
  · intro j hj
    rw [hcells, if_neg (BitVec.not_le.2 hj)]
  · obtain ⟨v, hv⟩ := fillRegisters_eq d.registers x
      (d.memory.slice d.registers.indexAddress (x.toNat + 1))
    rw [hv]
    rfl

/-- **Filling takes back what was spilled**: whatever the board holds and wherever the index
register points, as long as the board does not wait for a key, a step that finds a spill leaves each
register up to `x` in a byte of its own and no other byte changed. After it, on any board that holds
the same bytes there and has its index register at the same place, a step that finds a fill up to
the same register takes the registers back and leaves the others and memory alone. -/
theorem fill_of_spill (b : Board) (hready : b.keyWait.pending = false) (x : Nibble)
    (hopcode : (Instruction.spill x).opcode? = some b.opcode) :
    ∃ c, b.step = .ok none c ∧ Spilled b x c ∧
      ∀ d : Board, d.keyWait.pending = false → (Instruction.fill x).opcode? = some d.opcode →
        d.registers.index = b.registers.index →
        (∀ j ≤ x, d.memory.read (b.registers.slot j) = c.memory.read (b.registers.slot j)) →
          ∃ e, d.step = .ok none e ∧ (∀ j ≤ x, e.v j = b.v j) ∧ (∀ j, x < j → e.v j = d.v j) ∧
            e = d.withRegisters { d.registers with v := e.registers.v }.advance := by
  obtain ⟨c, hspill, hspilled⟩ := exists_spill hready hopcode
  refine ⟨c, hspill, hspilled, ?_⟩
  intro d hready' hopcode' hindex hbytes
  obtain ⟨e, hfill, hfilled⟩ := exists_fill hready' hopcode'
  refine ⟨e, hfill, ?_, hfilled.frame, hfilled.others⟩
  intro j hj
  have hslot : d.registers.slot j = b.registers.slot j := by
    rw [Registers.slot, Registers.slot, hindex]
  calc e.v j
    _ = d.memory.read (d.registers.slot j) := hfilled.taken j hj
    _ = c.memory.read (b.registers.slot j) := by rw [hslot, hbytes j hj]
    _ = b.v j := hspilled.kept j hj

/-- A board that spills four registers across the top of memory, and fills them again. -/
def spilling : Board where
  registers := { v := (Bank.fill 0).set 3 4, index := 0xFFFE }
  memory := (((Memory.powerUp.write 0x200 0xF3).write 0x201 0x55).write 0x202 0xF3).write 0x203 0x65
  random := .listed [] 0

theorem v_spilling : spilling.v 3 = 4 := by simp [spilling, v]

theorem opcode_spilling : (Instruction.spill 3).opcode? = some spilling.opcode := by
  have hopcode : spilling.opcode = 0xF355 := by
    show spilling.memory.read 0x200 ++ spilling.memory.read 0x201 = 0xF355#16
    simp [spilling, Memory.read_write]
  rw [hopcode]
  rfl

/-- The opcode of the fill is not among the bytes written. -/
theorem opcodeAt_of_spilled (hspilled : Spilled spilling 3 c) :
    c.memory.opcodeAt 0x202 = 0xF365 := by
  have hhigh : c.memory.read 0x202 = spilling.memory.read 0x202 := hspilled.frame _ (by decide)
  have hlow : c.memory.read 0x203 = spilling.memory.read 0x203 := hspilled.frame _ (by decide)
  show c.memory.read 0x202 ++ c.memory.read 0x203 = 0xF365#16
  rw [hhigh, hlow]
  simp [spilling, Memory.read_write]

/-- The board with all byte registers cleared. -/
def cleared (b : Board) : Board := b.withRegisters { b.registers with v := Bank.fill 0 }

/-- The fourth register is spilled into the font, and taken back after all registers were
cleared. -/
theorem fill_of_spill_spilling :
    spilling.keyWait.pending = false ∧ ∃ c, spilling.step = .ok none c ∧ c.memory.read 0x001 = 4 ∧
      ∃ e, c.cleared.step = .ok none e ∧ e.v 3 = 4 := by
  obtain ⟨c, hspill, hspilled, hfill⟩ := fill_of_spill spilling rfl 3 opcode_spilling
  have hregisters : c.registers = spilling.registers.advance :=
    congrArg Board.registers hspilled.others
  have hready : c.cleared.keyWait.pending = false :=
    congrArg (fun b : Board => b.keyWait.pending) hspilled.others
  have hopcode : (Instruction.fill 3).opcode? = some c.cleared.opcode := by
    have hnext : c.registers.pcAddress = 0x202 := by
      rw [hregisters]
      decide
    have hread : c.cleared.opcode = c.memory.opcodeAt c.registers.pcAddress := rfl
    rw [hread, hnext, opcodeAt_of_spilled hspilled]
    rfl
  have hindex : c.cleared.registers.index = spilling.registers.index := by
    show c.registers.index = _
    rw [hregisters]
    rfl
  refine ⟨rfl, c, hspill, ?_, ?_⟩
  · have hkept := hspilled.kept 3 (by decide)
    rw [v_spilling] at hkept
    exact hkept
  · obtain ⟨e, hstep, htaken, -⟩ := hfill c.cleared hready hopcode hindex fun _ _ => rfl
    refine ⟨e, hstep, ?_⟩
    rw [htaken 3 (by decide), v_spilling]

end Board

end Chip8
