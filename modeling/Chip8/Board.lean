import Chip8.Keypad
import Chip8.Random.Source
import Chip8.Registers
import Chip8.Screen
import Chip8.Timers

/-!
# The board

The processor with everything an instruction can read or write: registers, memory, screen, keypad,
timers and the source of random bytes.

Executing one instruction is a function on boards, which ends well or with a fault. Some
instructions leave a remark.

Waiting for a key is a state of its own: the instruction that found no key down leaves the program
counter in place and records the register to fill, and later steps look at the keypad instead of
memory until a key is down.

## Main definitions

* `Board`: the processor and what it drives
* `Board.execute`: the effect of one instruction
* `Board.step`: fetch, decode and execute, or look for the key waited for
* `Board.cycle`: a counted step
-/

namespace Chip8

/-- Whether the processor waits for a key, and into which register the key last waited for goes. -/
structure KeyWait where
  pending : Bool := false
  register : Int := 0
  deriving DecidableEq

/-- What an instruction leaves to be noted. -/
inductive Remark where
  /-- A call into machine code was passed over. -/
  | machineCode (target : Address) (pc : Int)
  /-- An opcode without a meaning was passed over. -/
  | unknownOpcode (opcode : Opcode) (pc : Int)
  /-- The processor starts to wait for a key. -/
  | awaitingKey (x : Nibble)
  deriving DecidableEq, Repr

/-- The processor and what it drives. -/
structure Board where
  registers : Registers := {}
  keyWait : KeyWait := {}
  /-- Completed instructions since the last reset. -/
  cycles : Nat := 0
  memory : Memory := .powerUp
  screen : Screen := {}
  keypad : Keypad := .released
  timers : Timers := {}
  random : RandomSource

/-- How an instruction ends: with the remark it leaves or with a fault, and with the board after
it. -/
abbrev Execution := EStateM.Result Fault Board (Option Remark)

namespace Board

/-- Registers, key wait and cycle count as they are at power-up. -/
def resetProcessor (b : Board) : Board := { b with registers := {}, keyWait := {}, cycles := 0 }

/-- The board with new registers. -/
def withRegisters (b : Board) (r : Registers) : Board := { b with registers := r }

/-- The content of a byte register. -/
def v (b : Board) (x : Nibble) : Byte := b.registers.v.get x

/-- The registers up to `x`. -/
def upTo (x : Nibble) : List Nibble := (List.range (x.toNat + 1)).map (BitVec.ofNat 4)

/-- The registers with consecutive byte registers, from the first on, filled from a list. -/
def fillRegisters (r : Registers) (x : Nibble) (bytes : List Byte) : Registers :=
  ((upTo x).zip bytes).foldl (fun r (i, byte) => r.setV i byte) r

/-- The three decimal digits of a byte. -/
def decimalDigits (b : Byte) : List Byte := [b / 100, b / 10 % 10, b % 10]

/-- Draw a sprite, and flag whether it hit a lit pixel. -/
def drawSprite (b : Board) (x y : Byte) (rows : Nat) : Execution :=
  match b.screen.draw b.memory b.registers.indexAddress x.toNat y.toNat rows with
  | .ok hit screen => .ok none { b with screen, registers := (b.registers.setFlag hit).advance }
  | .error cause screen => .error (.misplaced ⟨.pixels, cause⟩) { b with screen }

/-- The effect of one instruction. -/
def execute (b : Board) (instruction : Instruction) : Execution :=
  let r := b.registers
  let go (r : Registers) : Execution := .ok none (b.withRegisters r)
  match instruction with
  | .clearScreen => .ok none { b with screen := b.screen.clear, registers := r.advance }
  | .returnFromCall =>
    match r.pop with
    | .ok target r => go (r.goto target)
    | .error fault r => .error fault (b.withRegisters r)
  | .machineCode target => .ok (some (.machineCode target r.pc)) (b.withRegisters r.advance)
  | .jump target => go (r.goto target.toNat)
  | .call target =>
    match r.push r.advance.pc with
    | .ok _ r => go (r.goto target.toNat)
    | .error fault r => .error fault (b.withRegisters r)
  | .skipIfByte x byte => go (r.skipIf (r.v.get x == byte))
  | .skipUnlessByte x byte => go (r.skipIf (r.v.get x != byte))
  | .skipIfEqual x y => go (r.skipIf (r.v.get x == r.v.get y))
  | .skipUnlessEqual x y => go (r.skipIf (r.v.get x != r.v.get y))
  | .loadByte x byte => go (r.setV x byte).advance
  | .addByte x byte => go (r.setV x (r.v.get x + byte)).advance
  | .arithmetic operation x y => go (r.calculate operation x y).advance
  | .loadIndex address => go { r with index := address.toNat }.advance
  | .jumpDisplaced target => go (r.goto (target.toNat + (r.v.get 0).toNat))
  | .random x mask =>
    let (byte, random) := b.random.next
    .ok none { b with random, registers := (r.setV x (byte &&& mask)).advance }
  | .draw x y rows => b.drawSprite (r.v.get x) (r.v.get y) rows.toNat
  | .skipIfKey x => go (r.skipIf (b.keypad.isDown ((r.v.get x).setWidth 4)))
  | .skipUnlessKey x => go (r.skipIf (!b.keypad.isDown ((r.v.get x).setWidth 4)))
  | .readDelay x => go (r.setV x b.timers.delay).advance
  | .awaitKey x =>
    match b.keypad.firstDown with
    | some key => go (r.setV x (key.setWidth 8)).advance
    | none =>
      .ok (some (.awaitingKey x)) { b with keyWait := ⟨true, x.toNat⟩, registers := r.goto r.pc }
  | .setDelay x =>
    .ok none { b with timers := { b.timers with delay := r.v.get x }, registers := r.advance }
  | .setSound x =>
    .ok none { b with timers := { b.timers with sound := r.v.get x }, registers := r.advance }
  | .addIndex x =>
    let sum := r.index + (r.v.get x).toNat
    go { r.setFlag (sum > 0x0FFF) with index := (BitVec.ofInt 16 sum).toNat }.advance
  | .loadGlyph x => go { r with index := (r.v.get x).toNat * Memory.glyphSize }.advance
  | .storeDecimal x =>
    let memory := b.memory.writeAll r.indexAddress (decimalDigits (r.v.get x))
    .ok none { b with memory, registers := r.advance }
  | .spill x =>
    let memory := b.memory.writeAll r.indexAddress ((upTo x).map r.v.get)
    .ok none { b with memory, registers := r.advance }
  | .fill x => go (fillRegisters r x (b.memory.slice r.indexAddress (x.toNat + 1))).advance
  | .unknown opcode => .ok (some (.unknownOpcode opcode r.pc)) (b.withRegisters r.advance)

/-- The opcode that the program counter points at. -/
def opcode (b : Board) : Opcode := b.memory.opcodeAt b.registers.pcAddress

/-- A step of a processor that waits for a key: with a key down the wait ends and the program goes
on. -/
def pollKey (b : Board) : Execution :=
  match b.keypad.firstDown with
  | none => .ok none b
  | some key =>
    let b := { b with keyWait := { b.keyWait with pending := false } }
    match place 4 b.keyWait.register with
    | .ok x => .ok none (b.withRegisters (b.registers.setV x (key.setWidth 8)).advance)
    | .error cause => .error (.misplaced ⟨.writing, cause⟩) b

/-- One step of the processor. -/
def step (b : Board) : Execution :=
  if b.keyWait.pending then b.pollKey else b.execute (.ofOpcode b.opcode)

/-- A step that is counted. A step that ends with a fault is not. -/
def cycle (b : Board) : Execution :=
  match b.step with
  | .ok remark b => .ok remark { b with cycles := b.cycles + 1 }
  | .error fault b => .error fault b

end Board

end Chip8
