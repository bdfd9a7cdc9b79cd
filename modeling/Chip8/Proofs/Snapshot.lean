import Chip8.Proofs.Runs
import Chip8.Proofs.WellFormed
import Mathlib.Logic.Function.Basic

/-!
# Snapshots

A snapshot is what a board holds, cell by cell, with every number cut to its width: bytes in the
registers and in memory, twelve-bit addresses, a sixteen-bit index register, and single pixels.
Arithmetic on a snapshot wraps by itself. On a well-formed board nothing is cut off.

## Main definitions

* `RegisterView`, `Registers.view`: the register file, cell by cell
* `Snapshot`, `Board.snapshot`: the whole board, cell by cell

## Main statements

* `Registers.view_setV`, `Registers.view_goto`, `Registers.view_advance` and others: what an
  operation on the registers changes, and that it changes nothing else
* `Registers.view_pushed`, `Registers.view_popped`: the return stack
* `Board.eq_of_snapshot_eq`: a well-formed board is what its snapshot shows
-/

namespace Chip8

/-- What the registers hold, cell by cell. -/
@[ext] structure RegisterView where
  v : Nibble → Byte
  index : Word
  pc : Address
  /-- How many entries of the return stack are in use. -/
  sp : Nat
  stack : Nibble → Address

/-- What a board holds, cell by cell. -/
@[ext] structure Snapshot extends RegisterView where
  /-- Whether the processor waits for a key. -/
  awaiting : Bool
  keyRegister : Nibble
  cycles : Nat
  memory : Address → Byte
  lit : Fin Screen.width → Fin Screen.height → Bool
  dirty : Bool
  palette : Palette
  down : Nibble → Bool
  delay : Byte
  sound : Byte
  random : RandomSource

namespace Snapshot

/-- The opcode at the program counter, high byte first. -/
def opcode (s : Snapshot) : Opcode := s.memory s.pc ++ s.memory (s.pc + 1)

end Snapshot

/-- A flag as the flag register holds it. -/
def flagByte (c : Bool) : Byte := if c then 1 else 0

namespace Registers

/-- What the registers hold, cell by cell. -/
def view (r : Registers) : RegisterView where
  v := r.v.get
  index := BitVec.ofInt 16 r.index
  pc := BitVec.ofInt 12 r.pc
  sp := r.sp.toNat
  stack i := BitVec.ofInt 12 (r.stack.get i)

theorem view_setV (r : Registers) (x : Nibble) (b : Byte) :
    (r.setV x b).view = { r.view with v := Function.update r.view.v x b } := by
  have hcells : (r.setV x b).v.get = Function.update r.v.get x b := by
    funext i
    rw [get_setV, Function.update_apply]
    simp only [eq_comm]
  ext1
  · exact hcells
  all_goals rfl

theorem view_setFlag (r : Registers) (c : Bool) :
    (r.setFlag c).view = { r.view with v := Function.update r.view.v flag (flagByte c) } := by
  have hbyte : (BitVec.ofBool c).setWidth 8 = flagByte c := by cases c <;> rfl
  rw [setFlag, view_setV, hbyte]

theorem view_goto (r : Registers) (target : Int) :
    (r.goto target).view = { r.view with pc := BitVec.ofInt 12 target } := by
  have hpc : BitVec.ofInt 12 ((BitVec.ofInt 12 target).toNat : Int) = BitVec.ofInt 12 target := by
    rw [BitVec.ofInt_natCast, BitVec.ofNat_toNat, BitVec.setWidth_eq]
  ext1
  case pc => exact hpc
  all_goals rfl

theorem view_advance (r : Registers) : r.advance.view = { r.view with pc := r.view.pc + 2 } := by
  rw [advance, view_goto, BitVec.ofInt_add]
  rfl

theorem view_skipIf (r : Registers) (c : Bool) :
    (r.skipIf c).view = { r.view with pc := r.view.pc + if c then 4 else 2 } := by
  have hpc : BitVec.ofInt 12 (if c then r.pc + 4 else r.pc + 2) =
      BitVec.ofInt 12 r.pc + if c then 4 else 2 := by
    cases c
    · exact BitVec.ofInt_add ..
    · exact BitVec.ofInt_add ..
  rw [skipIf, view_goto, hpc]
  rfl

theorem view_stay (r : Registers) : (r.goto r.pc).view = r.view := by rw [view_goto]; rfl

theorem view_setIndex (r : Registers) (n : Int) :
    { r with index := n }.view = { r.view with index := BitVec.ofInt 16 n } := rfl

theorem ofInt_inj {w : Nat} {m n : Int} (hm : 0 ≤ m ∧ m < 2 ^ w) (hn : 0 ≤ n ∧ n < 2 ^ w)
    (h : BitVec.ofInt w m = BitVec.ofInt w n) : m = n := by
  have hnat := congrArg BitVec.toNat h
  rw [BitVec.toNat_ofInt, BitVec.toNat_ofInt] at hnat
  push_cast at hnat
  rw [Int.emod_eq_of_lt hm.1 hm.2, Int.emod_eq_of_lt hn.1 hn.2] at hnat
  omega

theorem setWidth_ofInt (n : Int) : (BitVec.ofInt 16 n).setWidth 12 = BitVec.ofInt 12 n := by
  apply BitVec.eq_of_toNat_eq
  rw [BitVec.toNat_setWidth, BitVec.toNat_ofInt, BitVec.toNat_ofInt]
  omega

/-- Keeping a return address. -/
theorem view_pushed {r : Registers} (h : r.WellFormed) (target : Int) :
    { r with stack := r.stack.set (BitVec.ofInt 4 r.sp) target, sp := r.sp + 1 }.view =
      { r.view with
        stack := Function.update r.view.stack (BitVec.ofNat 4 r.view.sp) (BitVec.ofInt 12 target)
        sp := r.view.sp + 1 } := by
  have hsp := h.sp
  -- The stack pointer is not negative, so that it names the same slot as a natural number.
  have hslot : BitVec.ofInt 4 r.sp = BitVec.ofNat 4 r.view.sp := by
    rw [← BitVec.ofInt_natCast]
    congr 1
    exact (Int.toNat_of_nonneg hsp.1).symm
  ext1
  case sp =>
    simp only [view]
    omega
  case stack =>
    funext i
    simp only [view, Bank.get_set, Function.update_apply, hslot, eq_comm]
    split <;> rfl
  all_goals rfl

/-- Taking the last return address back. -/
theorem view_popped {r : Registers} (h : r.WellFormed) (hkept : r.sp ≠ 0) :
    { r with sp := r.sp - 1 }.view = { r.view with sp := r.view.sp - 1 } ∧
      BitVec.ofInt 12 (r.stack.get (BitVec.ofInt 4 (r.sp - 1))) =
        r.view.stack (BitVec.ofNat 4 (r.view.sp - 1)) := by
  have hsp := h.sp
  have hslot : BitVec.ofInt 4 (r.sp - 1) = BitVec.ofNat 4 (r.view.sp - 1) := by
    rw [← BitVec.ofInt_natCast]
    congr 1
    simp only [view]
    omega
  refine ⟨?_, ?_⟩
  · ext1
    case sp =>
      simp only [view]
      omega
    all_goals rfl
  · rw [hslot]
    rfl

/-- On well-formed registers nothing is cut off. -/
theorem eq_of_view_eq {r s : Registers} (hr : r.WellFormed) (hs : s.WellFormed)
    (h : r.view = s.view) : r = s := by
  have hv : r.v = s.v := Bank.ext_get fun i => congrFun (congrArg RegisterView.v h) i
  have hindex : r.index = s.index :=
    ofInt_inj (by have := hr.index; omega) (by have := hs.index; omega)
      (congrArg RegisterView.index h)
  have hpc : r.pc = s.pc :=
    ofInt_inj (by have := hr.pc; omega) (by have := hs.pc; omega) (congrArg RegisterView.pc h)
  have hsp : r.sp = s.sp := by
    have heq : r.sp.toNat = s.sp.toNat := congrArg RegisterView.sp h
    have hrsp := hr.sp
    have hssp := hs.sp
    omega
  have hstack : r.stack = s.stack := Bank.ext_get fun i =>
    ofInt_inj (by have := hr.stack i; omega) (by have := hs.stack i; omega)
      (congrFun (congrArg RegisterView.stack h) i)
  exact (Registers.mk.injEq ..).mpr ⟨hv, hindex, hpc, hsp, hstack⟩

end Registers

namespace Board

/-- What the board holds, cell by cell. -/
def snapshot (b : Board) : Snapshot where
  toRegisterView := b.registers.view
  awaiting := b.keyWait.pending
  keyRegister := BitVec.ofInt 4 b.keyWait.register
  cycles := b.cycles
  memory := b.memory.read
  lit x y := b.screen.lit x y
  dirty := b.screen.dirty
  palette := b.screen.palette
  down := b.keypad.isDown
  delay := b.timers.delay
  sound := b.timers.sound
  random := b.random

/-- A well-formed board is what its snapshot shows. -/
theorem eq_of_snapshot_eq {b c : Board} (hb : b.WellFormed) (hc : c.WellFormed)
    (h : b.snapshot = c.snapshot) : b = c := by
  have hregisters : b.registers = c.registers :=
    Registers.eq_of_view_eq hb.registers hc.registers (congrArg Snapshot.toRegisterView h)
  have hkeyWait : b.keyWait = c.keyWait := by
    have hpending : b.keyWait.pending = c.keyWait.pending := congrArg Snapshot.awaiting h
    have hregister : b.keyWait.register = c.keyWait.register :=
      Registers.ofInt_inj (by have := hb.keyRegister; omega) (by have := hc.keyRegister; omega)
        (congrArg Snapshot.keyRegister h)
    exact (KeyWait.mk.injEq ..).mpr ⟨hpending, hregister⟩
  have hmemory : b.memory = c.memory :=
    Memory.ext_read fun a => congrFun (congrArg Snapshot.memory h) a
  have hscreen : b.screen = c.screen := by
    apply Screen.ext_lit
    · intro x hx y hy
      exact congrFun (congrFun (congrArg Snapshot.lit h) ⟨x, hx⟩) ⟨y, hy⟩
    · exact congrArg Snapshot.dirty h
    · exact congrArg Snapshot.palette h
  have hkeypad : b.keypad = c.keypad := by
    refine congrArg Keypad.mk (Bank.ext_get fun k => ?_)
    exact congrFun (congrArg Snapshot.down h) k
  have htimers : b.timers = c.timers :=
    congrArg₂ Timers.mk (congrArg Snapshot.delay h) (congrArg Snapshot.sound h)
  have hcycles : b.cycles = c.cycles := congrArg Snapshot.cycles h
  have hrandom : b.random = c.random := congrArg Snapshot.random h
  exact (Board.mk.injEq ..).mpr
    ⟨hregisters, hkeyWait, hcycles, hmemory, hscreen, hkeypad, htimers, hrandom⟩

end Board

end Chip8
