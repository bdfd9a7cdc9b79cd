import Chip8.Board
import Mathlib.Tactic.Common

/-!
# Runs of cells

Several instructions go through consecutive addresses or consecutive registers. This file says what
such a run leaves in each single cell. Distances between addresses are differences of addresses, so
a run that wraps from the top of memory to the bottom needs no case of its own.

## Main statements

* `Memory.read_writeAll`: what a run of bytes leaves at an address
* `Memory.powerUp_eq`: memory at power-up is a run of bytes over zeros
* `Board.get_fillRegisters`: what a run of registers holds after it was filled
-/

namespace Chip8

namespace Memory

/-- A run of bytes leaves each of them as far from its start as it stands in the run. All other
addresses keep what they held. -/
theorem read_writeAll (bytes : List Byte) (m : Memory) (a c : Address) (h : bytes.length ≤ size) :
    (m.writeAll a bytes).read c = bytes[(c - a).toNat]?.getD (m.read c) := by
  induction bytes generalizing m a with
  | nil => rfl
  | cons b bs ih =>
    have hshorter : bs.length < 4096 := h
    rw [writeAll, ih _ _ (by simp only [size]; omega), read_write]
    by_cases hstart : a = c
    · subst hstart
      -- The run goes on after its first address and does not come around to it again.
      have hlast : (a - (a + 1)).toNat = 4095 := by bv_omega
      have hnone : bs[(a - (a + 1)).toNat]? = none := by
        rw [hlast]
        exact List.getElem?_eq_none (by omega)
      rw [hnone, if_pos rfl, BitVec.sub_self]
      rfl
    · have hnext : (c - a).toNat = (c - (a + 1)).toNat + 1 := by bv_omega
      rw [hnext, List.getElem?_cons_succ, if_neg hstart]

/-- Memory at power-up is the font, written over zeros. -/
theorem powerUp_eq : powerUp = writeAll ⟨Bank.fill 0⟩ 0 font := by
  apply ext_read
  intro a
  have hfont : font.length ≤ size := by decide
  have hstart : a - 0 = a := BitVec.sub_zero a
  rw [read_writeAll _ _ _ _ hfont, hstart]
  simp only [powerUp, read, Bank.get_ofFn, Bank.get_fill, List.getD_eq_getElem?_getD]

end Memory

namespace Board

theorem get_foldl_setV (f : Nat → Byte) (r : Registers) (j : Nibble) {n : Nat} (h : n ≤ 16) :
    ((List.range n).foldl (fun r k => r.setV (BitVec.ofNat 4 k) (f k)) r).v.get j =
      if j.toNat < n then f j.toNat else r.v.get j := by
  induction n with
  | zero => rfl
  | succ n ih =>
    rw [List.range_succ, List.foldl_append, List.foldl_cons, List.foldl_nil, Registers.get_setV,
      ih (by omega)]
    by_cases hlast : j.toNat = n
    · have hcell : BitVec.ofNat 4 n = j := by rw [← hlast, BitVec.ofNat_toNat, BitVec.setWidth_eq]
      rw [if_pos hcell, if_pos (by omega), hlast]
    · have hcell : BitVec.ofNat 4 n ≠ j := by
        intro heq
        rw [← heq, BitVec.toNat_ofNat] at hlast
        omega
      rw [if_neg hcell]
      by_cases hbefore : j.toNat < n
      · rw [if_pos hbefore, if_pos (by omega)]
      · rw [if_neg hbefore, if_neg (by omega)]

/-- A run of registers, filled from the first one on, holds what it was filled with. All other
registers keep what they held. -/
theorem get_fillRegisters (r : Registers) (x j : Nibble) (f : Nat → Byte) :
    (fillRegisters r x ((List.range (x.toNat + 1)).map f)).v.get j =
      if j ≤ x then f j.toNat else r.v.get j := by
  have hx := x.isLt
  have hupTo : j.toNat < x.toNat + 1 ↔ j ≤ x := by rw [BitVec.le_def]; omega
  rw [fillRegisters, upTo, List.zip_map', List.foldl_map, get_foldl_setV f r j (by omega)]
  simp only [hupTo]

end Board

end Chip8
