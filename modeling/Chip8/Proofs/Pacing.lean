import Chip8.Host.Basic
import Mathlib.Tactic.Common

/-!
# Pacing at integer frequencies

Frequencies are mostly positive integers. With them, timer ticks are apart by the whole quotient of
the frequencies, and a clock at zero is anchored at the moment itself.

## Main statements

* `Pacer.timerInterval_integer`: the interval of two positive integer frequencies
* `Pacer.anchor_zero`: the anchor of a clock that shows zero
* `Host.create_eq`: with positive integer frequencies there is a host
* `Host.create_eq_ok_iff`: when there is a host, and what it is like
-/

namespace Chip8

namespace Pacer

variable {f t : Int}

theorem isNonpositive_integer (hf : 0 < f) : (Number.integer f).isNonpositive = false :=
  decide_eq_false (Int.not_le.2 hf)

theorem timerInterval_integer (f : Int) (ht : 0 < t) :
    timerInterval (.integer f) (.integer t) = .ok (max 1 (f / t).toNat) := by
  have hne : t ≠ 0 := by omega
  have hdiv : f.fdiv t = f / t := Int.fdiv_eq_ediv_of_nonneg f (Int.le_of_lt ht)
  simp only [timerInterval, Number.quantity, Quantity.floorDiv, if_neg hne, hdiv]
  rfl

theorem round_zero : Binary64.round 0 = .finite 0 := by decide +kernel

theorem toValue_second : Quantity.toValue (.integer second) = .ok (.finite 1000000000) := by
  have hround : Binary64.round (second : Rat) = .finite 1000000000 := by decide +kernel
  rw [Quantity.toValue, Quantity.toValue.round, hround]

theorem anchor_zero (now : Int) (hf : 0 < f) : anchor now 0 (.integer f) = .ok now := by
  have hne : f ≠ 0 := by omega
  have hquotient : Quantity.integerQuotient 0 f = .ok (.finite 0) := by
    rw [Quantity.integerQuotient, Int.zero_mul, Rat.zero_mkRat, round_zero]
  have hseconds : Quantity.div (.integer 0) (.integer f) = .ok (.real (.finite 0)) := by
    simp only [Quantity.div, if_neg hne, hquotient]
    rfl
  have helapsed : Quantity.mul (.real (.finite 0)) (.integer second) = .ok (.real (.finite 0)) := by
    have hzero : Binary64.Value.mul (.finite 0) (.finite 1000000000) = .finite 0 := by
      rw [Binary64.Value.mul, Rat.zero_mul, round_zero]
    rw [Quantity.mul, toValue_second]
    · exact congrArg (fun v => Except.ok (Quantity.real v)) hzero
    · rintro _ _ ⟨⟩
  simp only [anchor, isNonpositive_integer hf, Number.quantity, hseconds, bind,
    Except.bind, helapsed]
  simp [Quantity.truncate, pure, Except.pure]

end Pacer

/-- With positive integer frequencies there is a host. -/
theorem Host.create_eq {σ Op : Type} (plant : σ) (world : World) {f t : Int} (hf : 0 < f)
    (ht : 0 < t) (maxCatchUp : Int) :
    (Host.create plant world (.integer f) (.integer t) maxCatchUp : Except Failure (Host σ Op)) =
      .ok {
        plant
        world
        frequency := .integer f
        timerFrequency := .integer t
        maxCatchUp
        anchor := world.now
        interval := max 1 (f / t).toNat } := by
  simp only [Host.create, Pacer.isNonpositive_integer hf, Pacer.isNonpositive_integer ht,
    Pacer.timerInterval_integer f ht, Pacer.anchor_zero world.now hf]
  rfl

/-- There is a host if the frequencies are positive and the calculations have results. It is
stopped, with an empty queue and without listeners. -/
theorem Host.create_eq_ok_iff {σ Op : Type} {plant : σ} {world : World}
    {frequency timerFrequency : Number} {maxCatchUp : Int} {h : Host σ Op} :
    Host.create plant world frequency timerFrequency maxCatchUp = .ok h ↔
      (frequency.isNonpositive || timerFrequency.isNonpositive) = false ∧
        ∃ interval anchor, Pacer.timerInterval frequency timerFrequency = .ok interval ∧
          Pacer.anchor world.now 0 frequency = .ok anchor ∧
          h = { plant, world, frequency, timerFrequency, maxCatchUp, anchor, interval } := by
  constructor
  · intro hcreate
    simp only [Host.create, bind, Except.bind] at hcreate
    split at hcreate
    · cases hcreate
    next hpositive =>
      refine ⟨by simpa using hpositive, ?_⟩
      cases hinterval : Pacer.timerInterval frequency timerFrequency with
      | error e =>
        rw [hinterval] at hcreate
        cases hcreate
      | ok interval =>
        cases hanchor : Pacer.anchor world.now 0 frequency with
        | error e =>
          rw [hinterval, hanchor] at hcreate
          cases hcreate
        | ok anchor =>
          rw [hinterval, hanchor] at hcreate
          cases hcreate
          exact ⟨interval, anchor, rfl, rfl, rfl⟩
  · rintro ⟨hpositive, interval, anchor, hinterval, hanchor, rfl⟩
    simp only [Host.create, hpositive, hinterval, hanchor]
    rfl

end Chip8
