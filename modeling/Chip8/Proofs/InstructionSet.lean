import Chip8.Proofs.Encoding
import Chip8.Proofs.Snapshot

/-!
# The instruction set

The effect of each instruction on a snapshot, as the instruction table describes it: what it changes
is written out, and what it does not mention stays as it was. On a well-formed board, one step of
the processor fetches the opcode at the program counter and has exactly the effect of the table's
row.

Where an operand is the flag register itself, the flagging operations of two registers depend on the
order in which they write. The table leaves that open, and so does `Instruction.Applies`.

## Main definitions

* `Snapshot.effect`: the effect of an instruction
* `Instruction.Applies`: the instruction has room to work on, and its operands are not the flag
  register where that would matter

## Main statements

* `Snapshot.lowestKey?_eq_some_iff`: the lowest key held down
* `Board.performs_of_applies`: executing an instruction has its effect
* `Board.step_table`: so has a step that finds its opcode
-/

namespace Chip8

namespace Arithmetic

/-- The flag that an operation leaves, if it leaves one. -/
def flag? : Arithmetic → Option (Byte → Byte → Bool)
  | copy | or | and | xor => none
  | add => some fun vx vy => 0xFF < vx.toNat + vy.toNat
  | subtract | subtractFrom => some fun vx vy => !decide (vx ≤ vy)
  | shiftRight => some fun vx _ => vx.getLsbD 0
  | shiftLeft => some fun vx _ => vx.getLsbD 7

/-- The result of an operation. -/
def value (vx vy : Byte) : Arithmetic → Byte
  | copy => vy
  | or => vx ||| vy
  | and => vx &&& vy
  | xor => vx ^^^ vy
  | add => vx + vy
  | subtract => vx - vy
  | shiftRight => vx >>> 1
  | subtractFrom => vy - vx
  | shiftLeft => vx <<< 1

end Arithmetic

namespace Snapshot

/-- One byte register written. -/
def setV (s : Snapshot) (x : Nibble) (b : Byte) : Snapshot :=
  { s with v := Function.update s.v x b }

/-- The flag register written. -/
def setFlag (s : Snapshot) (c : Bool) : Snapshot := s.setV Registers.flag (flagByte c)

/-- On to the next instruction. -/
def next (s : Snapshot) : Snapshot := { s with pc := s.pc + 2 }

/-- On to the next instruction but one if a condition holds. -/
def skipIf (s : Snapshot) (c : Bool) : Snapshot := { s with pc := s.pc + if c then 4 else 2 }

/-- The address that the index register points at. -/
def indexAddress (s : Snapshot) : Address := s.index.setWidth 12

/-- The lowest key held down. -/
def lowestKey? (s : Snapshot) : Option Nibble := Keypad.keys.find? s.down

theorem lowestKey?_eq_some_iff {s : Snapshot} {k : Nibble} :
    s.lowestKey? = some k ↔ s.down k = true ∧ ∀ j < k, s.down j = false := by
  have hname (i : Nibble) : BitVec.ofNat 4 i.toNat = i := by
    rw [BitVec.ofNat_toNat, BitVec.setWidth_eq]
  rw [lowestKey?, Keypad.keys, List.find?_map, Option.map_eq_some_iff]
  constructor
  · rintro ⟨i, hfound, rfl⟩
    obtain ⟨hdown, hi, hbefore⟩ := List.find?_range_eq_some.1 hfound
    refine ⟨hdown, ?_⟩
    intro j hj
    have hup := hbefore j.toNat (by rw [List.mem_range] at hi; bv_omega)
    simpa [hname] using hup
  · rintro ⟨hdown, hbefore⟩
    refine ⟨k.toNat, List.find?_range_eq_some.2 ⟨?_, List.mem_range.2 k.isLt, ?_⟩, hname k⟩
    · simpa [hname] using hdown
    · intro j hj
      have hk := k.isLt
      simpa using hbefore (BitVec.ofNat 4 j) (by bv_omega)

theorem lowestKey?_eq_none_iff {s : Snapshot} : s.lowestKey? = none ↔ ∀ k, s.down k = false := by
  rw [lowestKey?, Keypad.keys, List.find?_map, Option.map_eq_none_iff, List.find?_range_eq_none]
  constructor
  · intro hnone k
    simpa using hnone k.toNat k.isLt
  · intro hup i _
    simpa using hup (BitVec.ofNat 4 i)

/-- A sprite of `rows` rows at the index has a set bit on a pixel, when drawn at `(x, y)`. -/
def Covers (s : Snapshot) (x y : Byte) (rows : Nibble) (px py : Nat) : Prop :=
  Screen.Covers s.memory s.indexAddress x.toNat y.toNat rows.toNat px py

instance (s : Snapshot) (x y : Byte) (rows : Nibble) (px py : Nat) :
    Decidable (s.Covers x y rows px py) :=
  inferInstanceAs (Decidable (Screen.Covers ..))

/-- The effect of an instruction, as the instruction table has it. -/
def effect (s : Snapshot) : Instruction → Snapshot
  | .clearScreen => { s with lit := fun _ _ => false, dirty := true }.next
  | .returnFromCall =>
    { s with sp := s.sp - 1, pc := s.stack (BitVec.ofNat 4 (s.sp - 1)) }
  | .jump target => { s with pc := target }
  | .call target =>
    { s with
      stack := Function.update s.stack (BitVec.ofNat 4 s.sp) (s.pc + 2)
      sp := s.sp + 1
      pc := target }
  | .skipIfByte x byte => s.skipIf (s.v x == byte)
  | .skipUnlessByte x byte => s.skipIf (s.v x != byte)
  | .skipIfEqual x y => s.skipIf (s.v x == s.v y)
  | .skipUnlessEqual x y => s.skipIf (s.v x != s.v y)
  | .loadByte x byte => (s.setV x byte).next
  | .addByte x byte => (s.setV x (s.v x + byte)).next
  | .arithmetic operation x y =>
    let flagged := match operation.flag? with
      | some flag => s.setFlag (flag (s.v x) (s.v y))
      | none => s
    (flagged.setV x (operation.value (s.v x) (s.v y))).next
  | .loadIndex address => { s with index := address.setWidth 16 }.next
  | .jumpDisplaced target => { s with pc := target + (s.v 0).setWidth 12 }
  | .random x mask => ({ s with random := s.random.next.2 }.setV x (s.random.next.1 &&& mask)).next
  | .draw x y rows =>
    let drawn (px : Fin Screen.width) (py : Fin Screen.height) : Bool :=
      s.lit px py ^^ decide (s.Covers (s.v x) (s.v y) rows px py)
    let hit := decide (∃ px py, s.lit px py = true ∧ s.Covers (s.v x) (s.v y) rows px py)
    ({ s with lit := drawn, dirty := true }.setFlag hit).next
  | .skipIfKey x => s.skipIf (s.down ((s.v x).setWidth 4))
  | .skipUnlessKey x => s.skipIf (!s.down ((s.v x).setWidth 4))
  | .readDelay x => (s.setV x s.delay).next
  | .awaitKey x =>
    match s.lowestKey? with
    | some key => (s.setV x (key.setWidth 8)).next
    | none => { s with awaiting := true, keyRegister := x }
  | .setDelay x => { s with delay := s.v x }.next
  | .setSound x => { s with sound := s.v x }.next
  | .addIndex x =>
    let index := s.index + (s.v x).setWidth 16
    ({ s with index }.setFlag (0xFFF < s.index.toNat + (s.v x).toNat)).next
  | .loadGlyph x => { s with index := (s.v x).setWidth 16 * 5 }.next
  | .storeDecimal x =>
    let hundreds := Function.update s.memory s.indexAddress (s.v x / 100)
    let tens := Function.update hundreds (s.indexAddress + 1) (s.v x / 10 % 10)
    let memory := Function.update tens (s.indexAddress + 2) (s.v x % 10)
    { s with memory }.next
  | .spill x =>
    let memory (a : Address) : Byte :=
      let distance := (a - s.indexAddress).toNat
      if distance ≤ x.toNat then s.v (BitVec.ofNat 4 distance) else s.memory a
    { s with memory }.next
  | .fill x =>
    let v (j : Nibble) : Byte :=
      if j ≤ x then s.memory (s.indexAddress + j.setWidth 12) else s.v j
    { s with v }.next
  | .machineCode _ | .unknown _ => s.next

end Snapshot

/-- The return stack has an entry or room for one where the instruction needs it, and the flag
register is not an operand of an operation that flags its result. -/
def Instruction.Applies (s : Snapshot) : Instruction → Prop
  | .returnFromCall => 0 < s.sp
  | .call _ => s.sp < 16
  | .arithmetic operation x y =>
    operation.flag?.isSome = true → x ≠ Registers.flag ∧ y ≠ Registers.flag
  | _ => True

namespace Board

/-- Executing the instruction ends well, with the effect that the table has. -/
def Performs (b : Board) (instruction : Instruction) : Prop :=
  ∃ remark c, b.execute instruction = .ok remark c ∧ c.snapshot = b.snapshot.effect instruction

variable {b : Board}

theorem snapshot_withRegisters (b : Board) (r : Registers) :
    (b.withRegisters r).snapshot = { b.snapshot with toRegisterView := r.view } := rfl

theorem ofInt_toNat {w : Nat} (a : BitVec w) : BitVec.ofInt w (a.toNat : Int) = a := by
  rw [BitVec.ofInt_natCast, BitVec.ofNat_toNat, BitVec.setWidth_eq]

theorem ofInt_toNat_setWidth {v : Nat} (w : Nat) (a : BitVec v) :
    BitVec.ofInt w (a.toNat : Int) = a.setWidth w := by
  rw [BitVec.ofInt_natCast, BitVec.ofNat_toNat]

/-- The index register points at the same address in the snapshot. -/
theorem indexAddress_snapshot (b : Board) : b.snapshot.indexAddress = b.registers.indexAddress :=
  Registers.setWidth_ofInt b.registers.index

/-! ## Control flow -/

theorem snapshot_advance (b : Board) :
    (b.withRegisters b.registers.advance).snapshot = b.snapshot.next := by
  rw [snapshot_withRegisters, Registers.view_advance]
  rfl

theorem snapshot_skipIf (b : Board) (c : Bool) :
    (b.withRegisters (b.registers.skipIf c)).snapshot = b.snapshot.skipIf c := by
  rw [snapshot_withRegisters, Registers.view_skipIf]
  rfl

theorem performs_jump (b : Board) (target : Address) : b.Performs (.jump target) := by
  refine ⟨none, _, rfl, ?_⟩
  rw [snapshot_withRegisters, Registers.view_goto, ofInt_toNat]
  rfl

theorem performs_jumpDisplaced (b : Board) (target : Address) :
    b.Performs (.jumpDisplaced target) := by
  refine ⟨none, _, rfl, ?_⟩
  rw [snapshot_withRegisters, Registers.view_goto, BitVec.ofInt_add, ofInt_toNat,
    ofInt_toNat_setWidth]
  rfl

theorem performs_call (hb : b.WellFormed) (target : Address) (hroom : b.registers.sp < 16) :
    b.Performs (.call target) := by
  refine ⟨none, _, (execute_call hb target).trans (if_pos hroom), ?_⟩
  have hreturn : BitVec.ofInt 12 b.registers.advance.pc = b.registers.view.pc + 2 := by
    rw [Registers.advance, Registers.goto, ofInt_toNat, BitVec.ofInt_add]
    rfl
  rw [snapshot_withRegisters, Registers.view_goto, Registers.view_pushed hb.registers, ofInt_toNat,
    hreturn]
  rfl

theorem performs_returnFromCall (hb : b.WellFormed) (hkept : b.registers.sp ≠ 0) :
    b.Performs .returnFromCall := by
  refine ⟨none, _, (execute_returnFromCall hb).trans (if_neg hkept), ?_⟩
  obtain ⟨hview, htarget⟩ := Registers.view_popped hb.registers hkept
  rw [snapshot_withRegisters, Registers.view_goto, hview, htarget]
  rfl

/-! ## Byte registers -/

theorem snapshot_setV (b : Board) (x : Nibble) (byte : Byte) :
    (b.withRegisters (b.registers.setV x byte).advance).snapshot =
      (b.snapshot.setV x byte).next := by
  rw [snapshot_withRegisters, Registers.view_advance, Registers.view_setV]
  rfl

theorem flag_subtract (vx vy : Byte) : decide (vy < vx) = !decide (vx ≤ vy) := by
  by_cases hle : vx ≤ vy
  · simp [hle, BitVec.not_lt.2 hle]
  · simp [hle, BitVec.not_le.1 hle]

/-- The flag is written first. If neither operand is the flag register, that changes neither of
them. -/
theorem performs_arithmetic {operation : Arithmetic} {x y : Nibble}
    (happlies : Instruction.Applies b.snapshot (.arithmetic operation x y)) :
    b.Performs (.arithmetic operation x y) := by
  refine ⟨none, _, rfl, ?_⟩
  have hkept (c : Bool) {z : Nibble} (hz : z ≠ Registers.flag) :
      (b.registers.setFlag c).v.get z = b.registers.v.get z := by
    rw [Registers.setFlag, Registers.get_setV, if_neg hz.symm]
  rw [snapshot_withRegisters, Registers.view_advance]
  cases operation with
  | copy | or | and | xor =>
    simp only [Registers.calculate, Registers.view_setV]
    rfl
  | add | subtract | shiftRight | subtractFrom | shiftLeft =>
    obtain ⟨hx, hy⟩ := happlies rfl
    simp only [Registers.calculate, Registers.view_setV, Registers.view_setFlag, hkept _ hx,
      hkept _ hy, flag_subtract]
    rfl

theorem performs_random (b : Board) (x : Nibble) (mask : Byte) : b.Performs (.random x mask) := by
  refine ⟨none, _, rfl, ?_⟩
  have hsource := snapshot_setV { b with random := b.random.next.2 } x (b.random.next.1 &&& mask)
  exact hsource

theorem performs_fill (b : Board) (x : Nibble) : b.Performs (.fill x) := by
  refine ⟨none, _, rfl, ?_⟩
  obtain ⟨v, hv⟩ := fillRegisters_eq b.registers x
    (b.memory.slice b.registers.indexAddress (x.toNat + 1))
  have hcells : v.get = (b.snapshot.effect (.fill x)).v := by
    funext j
    have hcell := get_fillRegisters b.registers x j
      fun k => b.memory.read (b.registers.indexAddress + BitVec.ofNat 12 k)
    -- A slice of memory is, by definition, the bytes read one after the other.
    change (fillRegisters b.registers x (b.memory.slice ..)).v.get j = _ at hcell
    rw [hv, BitVec.ofNat_toNat, ← indexAddress_snapshot] at hcell
    exact hcell
  rw [snapshot_withRegisters, Registers.view_advance, hv]
  ext1
  case v => exact hcells
  all_goals rfl

/-! ## The index register -/

theorem snapshot_setIndex (b : Board) (n : Int) :
    (b.withRegisters { b.registers with index := n }.advance).snapshot =
      { b.snapshot with index := BitVec.ofInt 16 n }.next := by
  rw [snapshot_withRegisters, Registers.view_advance]
  rfl

theorem performs_loadIndex (b : Board) (address : Address) : b.Performs (.loadIndex address) := by
  refine ⟨none, _, rfl, ?_⟩
  rw [snapshot_setIndex, ofInt_toNat_setWidth]
  rfl

theorem performs_addIndex (hb : b.WellFormed) (x : Nibble) : b.Performs (.addIndex x) := by
  refine ⟨none, _, rfl, ?_⟩
  have hindex := hb.registers.index
  have hflag : decide (b.registers.index + (b.registers.v.get x).toNat > 0x0FFF) =
      decide (0xFFF < b.snapshot.index.toNat + (b.snapshot.v x).toNat) := by
    have hnat : b.snapshot.index.toNat = b.registers.index.toNat := by
      show (BitVec.ofInt 16 b.registers.index).toNat = _
      rw [BitVec.toNat_ofInt]
      omega
    have hbyte : b.snapshot.v x = b.registers.v.get x := rfl
    rw [hnat, hbyte]
    exact decide_eq_decide.2 (by omega)
  rw [snapshot_withRegisters, Registers.view_advance, Registers.view_setIndex,
    Registers.view_setFlag, hflag, ofInt_toNat, BitVec.ofInt_add, ofInt_toNat_setWidth]
  rfl

theorem performs_loadGlyph (b : Board) (x : Nibble) : b.Performs (.loadGlyph x) := by
  refine ⟨none, _, rfl, ?_⟩
  rw [snapshot_setIndex, BitVec.ofInt_mul, ofInt_toNat_setWidth]
  rfl

/-! ## Memory -/

theorem snapshot_memory (b : Board) (memory : Memory) :
    { b with memory, registers := b.registers.advance }.snapshot =
      { b.snapshot with memory := memory.read }.next :=
  snapshot_advance { b with memory }

theorem read_write_update (m : Memory) (a : Address) (byte : Byte) :
    (m.write a byte).read = Function.update m.read a byte := by
  funext c
  rw [Memory.read_write, Function.update_apply]
  simp only [eq_comm]

theorem performs_storeDecimal (b : Board) (x : Nibble) : b.Performs (.storeDecimal x) := by
  refine ⟨none, _, rfl, ?_⟩
  have htwo (a : Address) : a + 1 + 1 = a + 2 := BitVec.add_assoc a 1 1
  rw [snapshot_memory, decimalDigits, Memory.writeAll, Memory.writeAll, Memory.writeAll,
    Memory.writeAll, read_write_update, read_write_update, read_write_update, htwo,
    ← indexAddress_snapshot]
  rfl

theorem performs_spill (b : Board) (x : Nibble) : b.Performs (.spill x) := by
  refine ⟨none, _, rfl, ?_⟩
  have hx := x.isLt
  have hcells : (b.memory.writeAll b.registers.indexAddress ((upTo x).map b.registers.v.get)).read =
      (b.snapshot.effect (.spill x)).memory := by
    funext a
    have hlength : ((upTo x).map b.registers.v.get).length = x.toNat + 1 := by simp [upTo]
    rw [Memory.read_writeAll _ _ _ _ (by rw [hlength, Memory.size]; omega), ← indexAddress_snapshot]
    show _ = if (a - b.snapshot.indexAddress).toNat ≤ x.toNat then _ else _
    by_cases hin : (a - b.snapshot.indexAddress).toNat ≤ x.toNat
    · rw [if_pos hin, upTo, List.map_map, List.getElem?_map, List.getElem?_range (by omega)]
      rfl
    · rw [if_neg hin, List.getElem?_eq_none (by omega)]
      rfl
  rw [snapshot_memory, hcells]
  rfl

/-! ## Screen and keypad -/

theorem performs_clearScreen (b : Board) : b.Performs .clearScreen := by
  refine ⟨none, _, rfl, ?_⟩
  have hdark : (fun (x : Fin Screen.width) (y : Fin Screen.height) => b.screen.clear.lit x y) =
      fun _ _ => false := by
    funext x y
    exact Screen.lit_clear b.screen x y
  rw [Snapshot.effect, ← hdark]
  exact snapshot_advance { b with screen := b.screen.clear }

theorem performs_draw (b : Board) (x y rows : Nibble) : b.Performs (.draw x y rows) := by
  have hrows := rows.isLt
  -- With fifteen rows at most, no two of them are on the same line.
  have hheight : rows.toNat ≤ Screen.height := by rw [Screen.height]; omega
  obtain ⟨hit, t, hdraw, hlit, hhit, hdirty, hpalette⟩ := Screen.exists_draw b.screen b.memory
    b.registers.indexAddress (b.registers.v.get x).toNat (b.registers.v.get y).toNat rows.toNat
  refine ⟨none, { b with screen := t, registers := (b.registers.setFlag hit).advance }, ?_, ?_⟩
  · simp only [execute, drawSprite, hdraw]
  have hcovers (px py : Nat) :
      b.snapshot.Covers (b.snapshot.v x) (b.snapshot.v y) rows px py ↔
        Screen.Covers b.memory.read b.registers.indexAddress (b.registers.v.get x).toNat
          (b.registers.v.get y).toNat rows.toNat px py := by
    rw [Snapshot.Covers, indexAddress_snapshot]
    rfl
  have hdrawn : (fun (px : Fin Screen.width) (py : Fin Screen.height) => t.lit px py) =
      fun px py => b.snapshot.lit px py ^^
        decide (b.snapshot.Covers (b.snapshot.v x) (b.snapshot.v y) rows px py) := by
    funext px py
    rw [hlit px px.isLt py py.isLt]
    congr 1
    rw [Bool.eq_iff_iff, Screen.turned_iff_covers _ _ _ _ _ _ hheight, decide_eq_true_iff, hcovers]
  have hflag : hit = decide (∃ px py, b.snapshot.lit px py = true ∧
      b.snapshot.Covers (b.snapshot.v x) (b.snapshot.v y) rows px py) := by
    rw [Bool.eq_iff_iff, hhit hheight, decide_eq_true_iff]
    simp only [hcovers]
    constructor
    · rintro ⟨px, hpx, py, hpy, hboth⟩
      exact ⟨⟨px, hpx⟩, ⟨py, hpy⟩, hboth⟩
    · rintro ⟨px, py, hboth⟩
      exact ⟨px, px.isLt, py, py.isLt, hboth⟩
  show { b.snapshot with
    toRegisterView := (b.registers.setFlag hit).advance.view
    lit := fun px py => t.lit px py
    dirty := t.dirty
    palette := t.palette } = _
  rw [Registers.view_advance, Registers.view_setFlag, hdrawn, hdirty, hpalette, hflag]
  rfl

theorem performs_awaitKey (b : Board) (x : Nibble) : b.Performs (.awaitKey x) := by
  have hlowest : b.snapshot.lowestKey? = b.keypad.firstDown := rfl
  rw [Performs, Snapshot.effect, execute, hlowest]
  cases b.keypad.firstDown with
  | some key => exact ⟨none, _, rfl, snapshot_setV b x _⟩
  | none =>
    refine ⟨some (.awaitingKey x), _, rfl, ?_⟩
    show { b.snapshot with
      toRegisterView := (b.registers.goto b.registers.pc).view
      awaiting := true
      keyRegister := BitVec.ofInt 4 x.toNat } = _
    rw [Registers.view_stay, ofInt_toNat]
    rfl

/-- Executing an instruction has the effect that the table has. -/
theorem performs_of_applies (hb : b.WellFormed) {instruction : Instruction}
    (happlies : instruction.Applies b.snapshot) : b.Performs instruction := by
  cases instruction with
  | clearScreen => exact performs_clearScreen b
  | returnFromCall =>
    have hkept : 0 < b.registers.sp.toNat := happlies
    exact performs_returnFromCall hb (by omega)
  | machineCode target => exact ⟨_, _, rfl, snapshot_advance b⟩
  | jump target => exact performs_jump b target
  | call target =>
    have hroom : b.registers.sp.toNat < 16 := happlies
    exact performs_call hb target (by omega)
  | skipIfByte | skipUnlessByte | skipIfEqual | skipUnlessEqual | skipIfKey | skipUnlessKey =>
    exact ⟨_, _, rfl, snapshot_skipIf b _⟩
  | loadByte | addByte | readDelay => exact ⟨_, _, rfl, snapshot_setV b _ _⟩
  | arithmetic operation x y => exact performs_arithmetic happlies
  | loadIndex address => exact performs_loadIndex b address
  | jumpDisplaced target => exact performs_jumpDisplaced b target
  | random x mask => exact performs_random b x mask
  | draw x y rows => exact performs_draw b x y rows
  | awaitKey x => exact performs_awaitKey b x
  | setDelay x =>
    exact ⟨_, _, rfl, snapshot_advance { b with timers := { b.timers with delay := b.v x } }⟩
  | setSound x =>
    exact ⟨_, _, rfl, snapshot_advance { b with timers := { b.timers with sound := b.v x } }⟩
  | addIndex x => exact performs_addIndex hb x
  | loadGlyph x => exact performs_loadGlyph b x
  | storeDecimal x => exact performs_storeDecimal b x
  | spill x => exact performs_spill b x
  | fill x => exact performs_fill b x
  | unknown op => exact ⟨_, _, rfl, snapshot_advance b⟩

/-! ## One step -/

/-- A step that finds the opcode of an instruction executes it. -/
theorem step_of_opcode? (hready : b.keyWait.pending = false) {instruction : Instruction}
    (hopcode : instruction.opcode? = some b.opcode) : b.step = b.execute instruction := by
  rw [step, hready, Instruction.ofOpcode_eq hopcode]
  rfl

/-- **The instruction table**: on a well-formed board that does not wait for a key, a step that
finds the opcode of an instruction has the effect of that instruction and no other. In the families
that are decoded further, a step that finds an opcode without a row goes on to the next instruction
and does nothing else. -/
theorem step_table (hb : b.WellFormed) (hready : b.keyWait.pending = false) :
    (∀ instruction : Instruction, instruction.opcode? = some b.snapshot.opcode →
      instruction.Applies b.snapshot →
        ∃ remark c, b.step = .ok remark c ∧ c.WellFormed ∧
          c.snapshot = b.snapshot.effect instruction) ∧
    (b.snapshot.opcode.family = 0x0 ∨ b.snapshot.opcode.family = 0x8 ∨
        b.snapshot.opcode.family = 0xE ∨ b.snapshot.opcode.family = 0xF →
      (∀ instruction : Instruction, instruction.opcode? ≠ some b.snapshot.opcode) →
        ∃ remark c, b.step = .ok remark c ∧ c.WellFormed ∧
          c.snapshot = { b.snapshot with pc := b.snapshot.pc + 2 }) := by
  have hstep (instruction : Instruction) (hdecoded : .ofOpcode b.snapshot.opcode = instruction)
      (happlies : instruction.Applies b.snapshot) :
      ∃ remark c, b.step = .ok remark c ∧ c.WellFormed ∧
        c.snapshot = b.snapshot.effect instruction := by
    obtain ⟨remark, c, hexecute, hsnapshot⟩ := performs_of_applies hb happlies
    have heq : b.step = .ok remark c := by
      rw [step, hready, ← hexecute, ← hdecoded]
      rfl
    have hwell := keeps_step b hb
    rw [heq] at hwell
    exact ⟨remark, c, heq, hwell, hsnapshot⟩
  refine ⟨?_, ?_⟩
  · intro instruction hrow happlies
    exact hstep instruction (Instruction.ofOpcode_eq hrow) happlies
  · intro hfamily hrow
    rcases Instruction.ofOpcode_of_no_row hfamily hrow with hdecoded | hdecoded
    · exact hstep _ hdecoded trivial
    · exact hstep _ hdecoded trivial

/-- `8014` with `200` and `100`: the sum wraps, and the carry is flagged. -/
theorem step_table_add :
    ∃ remark c,
      ({ registers := (({} : Registers).setV 0 200).setV 1 100
         memory := (Memory.powerUp.write 0x200 0x80).write 0x201 0x14
         random := .listed [] 0 } : Board).step = .ok remark c ∧
        c.snapshot.v 0 = 44 ∧ c.snapshot.v 0xF = 1 ∧ c.snapshot.v 1 = 100 ∧
        c.snapshot.pc = 0x202 := by
  have hb : Board.WellFormed
      { registers := (({} : Registers).setV 0 200).setV 1 100
        memory := (Memory.powerUp.write 0x200 0x80).write 0x201 0x14
        random := .listed [] 0 } :=
    ⟨(Registers.wellFormed_powerUp.setV 0 200).setV 1 100, by decide, by decide⟩
  have hopcode : ((Memory.powerUp.write 0x200 0x80).write 0x201 0x14).opcodeAt 0x200 = 0x8014 := by
    simp [Memory.opcodeAt, Memory.read_write]
  obtain ⟨remark, c, hstep, -, heffect⟩ := (step_table hb rfl).1 (.arithmetic .add 0 1)
    (congrArg some hopcode.symm) (by intro; decide)
  refine ⟨remark, c, hstep, ?_⟩
  rw [heffect]
  decide

end Board

end Chip8
