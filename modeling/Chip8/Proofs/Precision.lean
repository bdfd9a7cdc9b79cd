import Chip8.Proofs.Settings
import Chip8.Proofs.WallClock

/-!
# The precision of the anchor

The anchor of a clock is calculated with two roundings and is cut off to whole nanoseconds, and the
count that it comes to is read off with a third rounding and cut off again. Each rounding is off by
half a unit in the last place at most, one part in `2 ^ 53`. For a clock below `2 ^ 50` the first
two add up to less than half a cycle, the third cannot carry what is at most half a cycle too much
up to a whole one, for that bound lies on its grid, and the cut takes it off. So at the moment at
which a clock is anchored, the count does not come out one cycle high.

A quotient that is too small for a relative bound, as at enormous frequencies, comes to no
nanoseconds at all.

## Main statements

* `Binary64.IsRounded.le_mul_zpow`: a multiple of a power of two on the grid stays a bound
* `Binary64.IsRounded.le_add`: what a rounding is off by
* `Pacer.anchor_eq_ok_iff`: the anchor is two roundings and a cut
* `Pacer.exists_expected_of_anchor`: right after a clock was anchored, the count is at most what it
  shows
-/

namespace Chip8

namespace Binary64.IsRounded

variable {x m : ℚ}

/-- A multiple of a power of two that is on the grid of `x` is a bound for `x` only if it is one for
what `x` is rounded to. -/
theorem le_mul_zpow (hm : IsRounded x m) {e : Int} (he : unitLog x ≤ e) {j : ℕ}
    (hx : x ≤ j * 2 ^ e) :
    m ≤ j * 2 ^ e := by
  obtain ⟨k, hk, rfl⟩ := hm
  obtain ⟨i, hi⟩ := exists_units he
  have hgrid : (j : ℚ) * 2 ^ e = (j * i : ℕ) * 2 ^ unitLog x := by
    rw [hi]
    push_cast
    ring
  rw [hgrid] at hx ⊢
  have hle : k ≤ j * i := hk.le_natCast (by rwa [div_le_iff₀ (by positivity)])
  gcongr

/-- A rounding is off by half a unit in the last place at most. -/
theorem le_add_half (hm : IsRounded x m) : m ≤ x + 2 ^ unitLog x / 2 := by
  obtain ⟨k, hk, rfl⟩ := hm
  have hunit : (0 : ℚ) < 2 ^ unitLog x := by positivity
  have hlower := hk.lower
  rw [le_div_iff₀ hunit] at hlower
  linarith

/-- Where the unit in the last place is relative, a rounding is off by one part in `2 ^ 53` at
most. -/
theorem le_add (hm : IsRounded x m) (hx : 0 < x)
    (hnormal : leastExponent + fractionWidth ≤ Int.log 2 x) :
    m ≤ x + x / 2 ^ 53 := by
  have hunit : unitLog x = Int.log 2 x - fractionWidth := max_eq_left (by omega)
  have hlog : (2 : ℚ) ^ Int.log 2 x ≤ x := by exact_mod_cast Int.zpow_log_le_self one_lt_two hx
  have hhalf : (2 : ℚ) ^ unitLog x / 2 = 2 ^ Int.log 2 x / 2 ^ 53 := by
    rw [hunit, zpow_sub₀ two_ne_zero, fractionWidth]
    norm_num
    ring
  have hoff := hm.le_add_half
  have hbound : (2 : ℚ) ^ Int.log 2 x / 2 ^ 53 ≤ x / 2 ^ 53 := by gcongr
  linarith

end Binary64.IsRounded

namespace Pacer

open Binary64 (IsRounded)

variable {now anchor clock f : Int}

theorem integerQuotient_of_pos (hf : 0 < f) (n : Int) :
    Quantity.integerQuotient n f = match Binary64.round (n / f) with
      | .infinite _ => .error .quotientTooLarge
      | v => .ok v := by
  have hratio : mkRat (n * f.sign) f.natAbs = n / f := by
    rw [Int.sign_eq_one_of_pos hf, Int.mul_one, Rat.mkRat_eq_div, Nat.cast_natAbs, abs_of_pos hf]
  cases hround : Binary64.round (n / f) <;> simp only [Quantity.integerQuotient, hratio, hround]

theorem mul_second (q : ℚ) :
    Quantity.mul (.real (.finite q)) (.integer second) =
      .ok (.real (Binary64.round (q * 1000000000))) := by
  rw [Quantity.mul, toValue_second]
  · rfl
  · rintro _ _ ⟨⟩

/-- The anchor is calculated with two roundings, and cut off. -/
theorem anchor_eq_ok_iff (hf : 0 < f) :
    Pacer.anchor now clock (.integer f) = .ok anchor ↔
      ∃ seconds nanoseconds, Binary64.round (clock / f) = .finite seconds ∧
        Binary64.round (seconds * 1000000000) = .finite nanoseconds ∧
        anchor = now - nanoseconds.num.tdiv nanoseconds.den := by
  have hne : f ≠ 0 := hf.ne'
  simp only [Pacer.anchor, isNonpositive_integer hf, Number.quantity, Quantity.div, if_neg hne,
    integerQuotient_of_pos hf, bind, Except.bind]
  cases hseconds : Binary64.round (clock / f) with
  | nan => exact absurd hseconds (Binary64.round_ne_nan _)
  | infinite negative => simp
  | finite seconds =>
    simp only [Bool.false_eq_true, if_false, pure, Except.pure, mul_second]
    cases hnanoseconds : Binary64.round (seconds * 1000000000) with
    | nan => exact absurd hnanoseconds (Binary64.round_ne_nan _)
    | infinite negative => simp [Quantity.truncate, hnanoseconds]
    | finite nanoseconds =>
      constructor
      · intro h
        cases h
        exact ⟨seconds, nanoseconds, rfl, hnanoseconds, rfl⟩
      · rintro ⟨_, nanoseconds', ⟨⟩, hnanoseconds', rfl⟩
        rw [hnanoseconds] at hnanoseconds'
        cases hnanoseconds'
        rfl

/-- What is rounded to more than a power of two is more. -/
theorem zpow_lt_of_round {q v : ℚ} {e : Int} (hq : 0 ≤ q) (hlow : Binary64.leastExponent ≤ e)
    (hhigh : e < Binary64.overflowExponent) (hround : Binary64.round q = .finite v)
    (hv : 2 ^ e < v) : 2 ^ e < q := by
  by_contra hle
  obtain ⟨w, hw, -, hbound⟩ := Binary64.exists_round_le hq (not_lt.1 hle) hlow hhigh
  rw [hround] at hw
  cases hw
  exact absurd hv (not_lt.2 hbound)

/-- A rounding to more than a moderate power of two is off by one part in `2 ^ 53` at most. -/
theorem le_add_of_round {q v : ℚ} {e : Int} (hq : 0 ≤ q) (hlow : -1022 ≤ e)
    (hhigh : e < Binary64.overflowExponent) (hround : Binary64.round q = .finite v)
    (hv : 2 ^ e < v) : v ≤ q + q / 2 ^ 53 := by
  have hlt : 2 ^ e < q := zpow_lt_of_round hq (by simp only [Binary64.leastExponent]; omega)
    hhigh hround hv
  rcases Binary64.isRounded_of_round hq hround with ⟨rfl, -⟩ | ⟨hpos, hrounded⟩
  · exact absurd hlt (not_lt.2 (by positivity))
  · refine hrounded.le_add hpos ?_
    have hlog : e ≤ Int.log 2 q :=
      (Int.zpow_le_iff_le_log one_lt_two hpos).1 (by exact_mod_cast hlt.le)
    simp only [Binary64.leastExponent, Binary64.fractionWidth]
    omega

/-- The nanoseconds that a clock below `2 ^ 50` comes to are, read back as cycles, at most half a
cycle too many. -/
theorem nanoseconds_le {seconds nanoseconds : ℚ} (hf : 0 < f) (hclock : 0 ≤ clock)
    (hbound : clock < 2 ^ 50) (hseconds : Binary64.round (clock / f) = .finite seconds)
    (hnanoseconds : Binary64.round (seconds * 1000000000) = .finite nanoseconds) :
    (⌊nanoseconds⌋ * f : Int) / (1000000000 : ℚ) ≤ clock + 1 / 2 := by
  have hf' : (0 : ℚ) < f := by exact_mod_cast hf
  have hclock' : (0 : ℚ) ≤ clock := by exact_mod_cast hclock
  have hbound' : (clock : ℚ) < 2 ^ 50 := by exact_mod_cast hbound
  have hquotient : (0 : ℚ) ≤ clock / f := by positivity
  have hnonneg : 0 ≤ seconds := Binary64.round_nonneg hquotient hseconds
  by_cases hone : nanoseconds < 1
  · -- There is less than a nanosecond.
    have hfloor : ⌊nanoseconds⌋ ≤ 0 :=
      Int.lt_add_one_iff.1 (Int.floor_lt.2 (by exact_mod_cast hone))
    have hnone : ((⌊nanoseconds⌋ * f : Int) : ℚ) ≤ 0 := by
      exact_mod_cast Int.mul_nonpos_of_nonpos_of_nonneg hfloor hf.le
    have hdiv : ((⌊nanoseconds⌋ * f : Int) : ℚ) / 1000000000 ≤ 0 :=
      div_nonpos_of_nonpos_of_nonneg hnone (by norm_num)
    linarith
  · have hmany : (2 : ℚ) ^ (-1 : Int) < nanoseconds := by
      refine lt_of_lt_of_le ?_ (not_lt.1 hone)
      norm_num
    have hproduct : (0 : ℚ) ≤ seconds * 1000000000 := by positivity
    have hsecond := le_add_of_round hproduct (by decide) (by decide) hnanoseconds hmany
    have hlarge : (2 : ℚ) ^ (-31 : Int) < seconds := by
      have hlt := zpow_lt_of_round hproduct (by decide) (by decide) hnanoseconds hmany
      norm_num at hlt ⊢
      linarith
    have hfirst := le_add_of_round hquotient (by decide) (by decide) hseconds hlarge
    have hcycles : (clock : ℚ) / f * f = clock := div_mul_cancel₀ _ hf'.ne'
    calc ((⌊nanoseconds⌋ * f : Int) : ℚ) / 1000000000
        = ⌊nanoseconds⌋ * f / 1000000000 := by push_cast; rfl
      _ ≤ (seconds * 1000000000 + seconds * 1000000000 / 2 ^ 53) * f / 1000000000 := by
          gcongr
          exact (Int.floor_le nanoseconds).trans hsecond
      _ = seconds * f * (1 + 1 / 2 ^ 53) := by ring
      _ ≤ (clock / f + clock / f / 2 ^ 53) * f * (1 + 1 / 2 ^ 53) := by gcongr
      _ = clock / f * f * (1 + 1 / 2 ^ 53) ^ 2 := by ring
      _ = clock * (1 + 1 / 2 ^ 53) ^ 2 := by rw [hcycles]
      _ ≤ clock + 1 / 2 := by
          norm_num at hbound' ⊢
          linarith

/-- Half a cycle more than a clock below `2 ^ 50` shows is on the grid, and stays a bound. -/
theorem le_half_of_round {q v : ℚ} {c : ℕ} (hbound : c < 2 ^ 50) (hq : 0 ≤ q) (hle : q ≤ c + 1 / 2)
    (hround : Binary64.round q = .finite v) : v ≤ c + 1 / 2 := by
  have hbound' : (c : ℚ) < 2 ^ 50 := by exact_mod_cast hbound
  rcases Binary64.isRounded_of_round hq hround with ⟨-, rfl⟩ | ⟨hpos, hrounded⟩
  · positivity
  · have hgrid : (c : ℚ) + 1 / 2 = (2 * c + 1 : ℕ) * 2 ^ (-1 : Int) := by
      rw [zpow_neg_one]
      push_cast
      ring
    have hlog : Int.log 2 q < 51 := by
      have hpow : (2 : ℚ) ^ (51 : Int) = 2 ^ 50 + 2 ^ 50 := by norm_num
      refine (Int.lt_zpow_iff_log_lt one_lt_two hpos).1 (lt_of_le_of_lt hle ?_)
      rw [Nat.cast_ofNat, hpow]
      linarith
    have hunit : Binary64.unitLog q ≤ -1 := by
      simp only [Binary64.unitLog, Binary64.fractionWidth, Binary64.leastExponent]
      omega
    rw [hgrid] at hle ⊢
    exact hrounded.le_mul_zpow hunit hle

/-- **Right after a clock was anchored**, the count that the wall clock has come to is at most what
the clock shows. -/
theorem exists_expected_of_anchor (hf : 0 < f) (hclock : 0 ≤ clock) (hbound : clock < 2 ^ 50)
    (hanchor : Pacer.anchor now clock (.integer f) = .ok anchor) :
    ∃ e, expected now anchor (.integer f) = .ok e ∧ e ≤ clock := by
  obtain ⟨seconds, nanoseconds, hseconds, hnanoseconds, rfl⟩ := (anchor_eq_ok_iff hf).1 hanchor
  have hle := nanoseconds_le hf hclock hbound hseconds hnanoseconds
  obtain ⟨c, rfl⟩ := Int.eq_ofNat_of_zero_le hclock
  have hbound' : c < 2 ^ 50 := by exact_mod_cast hbound
  have hf' : (0 : ℚ) < f := by exact_mod_cast hf
  have hnonneg : 0 ≤ seconds := Binary64.round_nonneg (by positivity) hseconds
  have hnonneg' : 0 ≤ nanoseconds := Binary64.round_nonneg (by positivity) hnanoseconds
  have helapsed : now - (now - nanoseconds.num.tdiv nanoseconds.den) = ⌊nanoseconds⌋ := by
    rw [tdiv_eq_floor hnonneg']
    omega
  have hcount : (0 : ℚ) ≤ (⌊nanoseconds⌋ * f : Int) / 1000000000 := by
    have hfloor : 0 ≤ ⌊nanoseconds⌋ := Int.floor_nonneg.2 hnonneg'
    positivity
  have hsmall : ((⌊nanoseconds⌋ * f : Int) : ℚ) / 1000000000 ≤ 2 ^ (51 : Int) := by
    have hlt : (c : ℚ) < 2 ^ 50 := by exact_mod_cast hbound'
    have hpow : (2 : ℚ) ^ (51 : Int) = 2 ^ 50 + 2 ^ 50 := by norm_num
    rw [hpow]
    rw [Int.cast_natCast] at hle
    linarith
  obtain ⟨q, hq, hq_nonneg, -⟩ := Binary64.exists_round_le hcount hsmall (by decide) (by decide)
  have hhalf : q ≤ c + 1 / 2 := le_half_of_round hbound' hcount hle hq
  refine ⟨⌊q⌋, expected_eq_ok_iff.2 ⟨q, ?_, (tdiv_eq_floor hq_nonneg).symm⟩, ?_⟩
  · rw [helapsed]
    exact hq
  · have hfloor : ⌊q⌋ < (c : Int) + 1 := Int.floor_lt.2 (by push_cast; linarith)
    omega

end Pacer

end Chip8
