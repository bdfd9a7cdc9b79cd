import Chip8.Number

/-!
# Pacing by the wall clock

An emulated clock runs alongside the wall clock from an anchor: the moment, in nanoseconds, at which
the emulated clock stood at zero. Setting the clock moves the anchor back by the time the clock
would have taken; reading it off counts the cycles that fit between the anchor and now.

## Main definitions

* `Pacer.anchor`: the anchor at which a clock shows a count now
* `Pacer.expected`: the count that a clock with an anchor should show now
* `Pacer.timerInterval`: the cycles between two ticks of a slower clock

## Main statements

* `Pacer.one_le_timerInterval`: timer ticks are at least one cycle apart
-/

namespace Chip8.Pacer

/-- Nanoseconds in a second. -/
def second : Int := 1000000000

/-- The anchor at which a clock of the given frequency shows `clock` at the moment `now`. Without a
positive frequency a clock is anchored at the moment itself. -/
def anchor (now clock : Int) (frequency : Number) : Except ArithmeticError Int :=
  if frequency.isNonpositive then .ok now
  else do
    let seconds ← Quantity.div (.integer clock) frequency.quantity
    let elapsed ← (← seconds.mul (.integer second)).truncate
    return now - elapsed

/-- The count that a clock of the given frequency should show at the moment `now`. -/
def expected (now anchor : Int) (frequency : Number) : Except ArithmeticError Int := do
  let product ← Quantity.mul (.integer (now - anchor)) frequency.quantity
  (← product.div (.integer second)).truncate

/-- How many cycles of a clock make one tick of a slower one: the whole quotient of the frequencies,
and at least one. -/
def timerInterval (frequency timerFrequency : Number) : Except ArithmeticError Nat := do
  let quotient ← (← frequency.quantity.floorDiv timerFrequency.quantity).truncate
  return max 1 quotient.toNat

/-- Timer ticks are at least one cycle apart. -/
theorem one_le_timerInterval {frequency timerFrequency : Number} {n : Nat}
    (h : timerInterval frequency timerFrequency = .ok n) : 1 ≤ n := by
  unfold timerInterval at h
  simp only [bind, Except.bind] at h
  split at h
  · cases h
  · split at h
    · cases h
    · cases h
      exact Nat.le_max_left ..

end Chip8.Pacer
