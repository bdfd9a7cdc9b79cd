import Chip8.Fault
import Chip8.Instruction

/-!
# The register file

Sixteen byte registers, of which the last also receives flags; the index register, which points into
memory; the program counter; and the return stack of sixteen entries with its pointer.

Programs leave only small numbers in the index register, the program counter and the return stack,
but a debugger may put any number there. An address is taken from the low twelve bits of a number; a
stack pointer counts entries from either end.

## Main definitions

* `Registers`: all of them, as they are after a reset
* `Registers.calculate`: the effect of an arithmetic operation
* `Registers.push`, `Registers.pop`: the return stack

## Main statements

* `Registers.pc_goto_lt`: the program counter goes nowhere but to addresses
* `Registers.pop_of_push`: the return address kept last is the one taken back
-/

namespace Chip8

/-- The registers of the processor. -/
structure Registers where
  /-- The byte registers. -/
  v : Bank 4 Byte := Bank.fill 0
  /-- The index register. -/
  index : Int := 0
  /-- The program counter. -/
  pc : Int := Memory.programStart.toNat
  /-- How many entries of the return stack are in use. -/
  sp : Int := 0
  /-- The return stack. -/
  stack : Bank 4 Int := Bank.fill 0
  deriving DecidableEq

namespace Registers

/-- The register that receives flags. -/
def flag : Nibble := 0xF

/-- Entries of the return stack. -/
def stackDepth : Nat := addressCount 4

/-- The registers with one byte register written. -/
def setV (r : Registers) (x : Nibble) (b : Byte) : Registers := { r with v := r.v.set x b }

/-- The registers with the flag set to one or zero. -/
def setFlag (r : Registers) (b : Bool) : Registers := r.setV flag (BitVec.ofBool b |>.setWidth 8)

/-- The address that the program counter points at. -/
def pcAddress (r : Registers) : Address := BitVec.ofInt 12 r.pc

/-- The address that the index register points at. -/
def indexAddress (r : Registers) : Address := BitVec.ofInt 12 r.index

/-- Continue at a target, of which only the twelve bits of an address count. -/
def goto (r : Registers) (target : Int) : Registers :=
  { r with pc := (BitVec.ofInt 12 target).toNat }

/-- Continue with the next instruction. -/
def advance (r : Registers) : Registers := r.goto (r.pc + 2)

/-- Continue with the next instruction but one if a condition holds, and with the next one
otherwise. -/
def skipIf (r : Registers) (condition : Bool) : Registers :=
  r.goto (if condition then r.pc + 4 else r.pc + 2)

/-- Carry out an arithmetic operation. The flag is written first and the operands are read again
after it, so an operand that is the flag register itself enters the result as the flag. -/
def calculate (r : Registers) (operation : Arithmetic) (x y : Nibble) : Registers :=
  let vx := r.v.get x
  let vy := r.v.get y
  match operation with
  | .copy => r.setV x vy
  | .or => r.setV x (vx ||| vy)
  | .and => r.setV x (vx &&& vy)
  | .xor => r.setV x (vx ^^^ vy)
  | .add =>
    let r := r.setFlag (vx.toNat + vy.toNat > 0xFF)
    r.setV x (r.v.get x + r.v.get y)
  | .subtract =>
    let r := r.setFlag (vy < vx)
    r.setV x (r.v.get x - r.v.get y)
  | .shiftRight =>
    let r := r.setFlag (vx.getLsbD 0)
    r.setV x (r.v.get x >>> 1)
  | .subtractFrom =>
    let r := r.setFlag (vy < vx)
    r.setV x (r.v.get y - r.v.get x)
  | .shiftLeft =>
    let r := r.setFlag vx.msb
    r.setV x (r.v.get x <<< 1)

/-- Keep a return address, if the stack has room for it. -/
def push (r : Registers) (target : Int) : EStateM.Result Fault Registers Unit :=
  if stackDepth ≤ r.sp then .error (.stackFull r.pc) r
  else match place 4 r.sp with
    | .ok slot => .ok () { r with stack := r.stack.set slot target, sp := r.sp + 1 }
    | .error cause => .error (.misplaced ⟨.writing, cause⟩) r

/-- Take the last return address back, if there is one. The pointer is lowered first. -/
def pop (r : Registers) : EStateM.Result Fault Registers Int :=
  if r.sp = 0 then .error (.stackEmpty r.pc) r
  else
    let r := { r with sp := r.sp - 1 }
    match place 4 r.sp with
    | .ok slot => .ok (r.stack.get slot) r
    | .error cause => .error (.misplaced ⟨.reading, cause⟩) r

theorem get_setV (r : Registers) (x i : Nibble) (b : Byte) :
    (r.setV x b).v.get i = if x = i then b else r.v.get i :=
  Bank.get_set r.v x i b

/-- The program counter goes nowhere but to addresses. -/
theorem pc_goto_lt (r : Registers) (target : Int) :
    0 ≤ (r.goto target).pc ∧ (r.goto target).pc < Memory.size :=
  ⟨Int.natCast_nonneg _, Int.ofNat_lt.2 (BitVec.ofInt 12 target).isLt⟩

/-- The return address kept last is the one taken back. -/
theorem pop_of_push {r s : Registers} {target : Int} (counted : 0 ≤ r.sp)
    (h : r.push target = .ok () s) : s.pop = .ok target { s with sp := r.sp } := by
  unfold push at h
  split at h
  · cases h
  · split at h
    next slot found =>
      cases h
      have raised : r.sp + 1 ≠ 0 := by omega
      simp [pop, raised, found]
    · cases h

end Registers

end Chip8
