import Chip8.Place

/-!
# Faults

Why the processor cannot carry out an instruction. Running a program can only find the return stack
empty or full. That a number names no cell takes a register that was set from outside to what no
program leaves in it.
-/

namespace Chip8

/-- Why an instruction cannot be carried out. -/
inductive Fault where
  /-- A return with no call to return from, with the program counter. -/
  | stackEmpty (pc : Int)
  /-- A call with every entry of the return stack in use, with the program counter. -/
  | stackFull (pc : Int)
  /-- A register counts a cell that is not there. -/
  | misplaced (cause : Misplaced)
  deriving DecidableEq, Repr

/-- Whether a fault is one that a program can come to by itself. -/
def Fault.isStackFault : Fault → Bool
  | stackEmpty _ => true
  | stackFull _ => true
  | misplaced _ => false

end Chip8
