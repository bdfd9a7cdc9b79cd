import Chip8.Bank

/-!
# The delay and sound timers

Two eight-bit counters that are counted down together. The sound timer announces the moment it runs
out.

## Main definitions

* `Timers.tick`: count both down
* `Timers.expiring`: whether the next tick runs the sound timer out

## Main statements

* `Timers.toNat_countDown`: counting down is subtraction that stops at zero
-/

namespace Chip8

/-- The delay and sound timers. -/
structure Timers where
  delay : Byte := 0
  sound : Byte := 0
  deriving DecidableEq

namespace Timers

/-- One less, but never below zero. -/
def countDown (b : Byte) : Byte := if b = 0 then 0 else b - 1

/-- Count both timers down once. -/
def tick (t : Timers) : Timers := ⟨countDown t.delay, countDown t.sound⟩

/-- Whether the next tick runs the sound timer out. A timer already at zero does not run out
again. -/
def expiring (t : Timers) : Bool := t.sound == 1

theorem tick_sound_eq_zero_of_expiring {t : Timers} (h : t.expiring = true) : t.tick.sound = 0 := by
  simp only [expiring, beq_iff_eq] at h
  simp [tick, countDown, h]

/-- Counting down is subtraction that stops at zero. -/
theorem toNat_countDown (b : Byte) : (countDown b).toNat = b.toNat - 1 := by
  unfold countDown
  split
  next h => simp [h]
  next h =>
    have positive : b.toNat ≠ 0 := fun zero => h (BitVec.eq_of_toNat_eq zero)
    have bounded := b.isLt
    rw [BitVec.toNat_sub]
    simp
    omega

end Timers

end Chip8
