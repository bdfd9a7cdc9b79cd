import Chip8.Proofs.Precision

/-!
# The cycles of a span of time

How many cycles a span of time comes to is a quotient that is rounded once and cut off. Below
`2 ^ 24` cycles a quotient that is not whole is a billionth away from the next whole number at
least, and half a unit in the last place is less than that. So rounding does not carry the quotient
up to a whole number that it has not reached, and what is cut off is what the exact quotient has
after the point.

The quotient can be rounded as long as it is nearer to the greatest finite value than to the next
power of two. Over all these quotients, of either sign, longer spans come to as many cycles at
least.

## Main definitions

* `Binary64.Fits`: a finite value comes near a rational
* `Pacer.cycles`: the exact quotient

## Main statements

* `Binary64.exists_round_iff`: a rational is rounded to a finite value if it fits
* `Binary64.round_le_round`: rounding keeps the order of rationals of either sign
* `Pacer.floor_round`: below `2 ^ 24` cycles rounding does not reach the next whole number
* `Pacer.clock_never_ahead`: the count is exact below `2 ^ 24` cycles, and never goes back
-/

namespace Chip8

namespace Binary64

/-! ## What fits -/

/-- A rational is nearer to the greatest finite value, which is `(2 ^ 53 - 1) * 2 ^ 971`, than to
the power of two that comes after it, or it is no greater. The same goes for the opposite of a
negative rational. -/
def Fits (x : ℚ) : Prop := |x| < (2 ^ 53 - 1 / 2) * 2 ^ (971 : Int)

theorem overflow_eq : ((Nat.pow 2 overflowExponent : Nat) : ℚ) = 2 ^ 53 * 2 ^ (971 : Int) := by
  rw [Nat.pow_eq, Nat.cast_pow, Nat.cast_ofNat, overflowExponent, zpow_ofNat, ← pow_add]

namespace IsRounded

variable {x m : ℚ}

/-- A multiple of a power of two that is on the grid of `x` is at most what `x` is rounded to if it
is at most `x`. -/
theorem mul_zpow_le (hm : IsRounded x m) {e : Int} (he : unitLog x ≤ e) {j : ℕ}
    (hx : j * 2 ^ e ≤ x) :
    j * 2 ^ e ≤ m := by
  obtain ⟨k, hk, rfl⟩ := hm
  obtain ⟨i, hi⟩ := exists_units he
  have hgrid : (j : ℚ) * 2 ^ e = (j * i : ℕ) * 2 ^ unitLog x := by
    rw [hi]
    push_cast
    ring
  rw [hgrid] at hx ⊢
  have hle : j * i ≤ k := hk.natCast_le (by rwa [le_div_iff₀ (by positivity)])
  gcongr

/-- In the last binade, what is below the middle between the greatest finite value and the next
power of two is rounded to a finite value. What is in the middle is not: the power is an even
multiple of the unit in the last place. -/
theorem lt_iff_of_log_eq (hm : IsRounded x m) (hlog : Int.log 2 x = 1023) :
    m < 2 ^ 53 * 2 ^ (971 : Int) ↔ x < (2 ^ 53 - 1 / 2) * 2 ^ (971 : Int) := by
  obtain ⟨k, hk, rfl⟩ := hm
  have hunit : unitLog x = 971 := by
    rw [unitLog, hlog, fractionWidth, leastExponent]
    rfl
  rw [hunit] at hk ⊢
  rw [mul_lt_mul_iff_left₀ (by positivity), ← div_lt_iff₀ (by positivity)]
  have hlower := hk.lower
  have hupper := hk.upper
  constructor
  · intro hlt
    have hlast : k + 1 ≤ 2 ^ 53 := by exact_mod_cast hlt
    have hlast' : (k : ℚ) + 1 ≤ 2 ^ 53 := by exact_mod_cast hlast
    refine lt_of_le_of_ne (by linarith) fun htie => ?_
    -- Were `x` in the middle, the even one of its two neighbours would not be the one below.
    have hk' : (k : ℚ) + 1 = 2 ^ 53 := by linarith
    have heven := hk.tie (Or.inr (by linarith))
    have hodd : k + 1 = 2 ^ 53 := by exact_mod_cast hk'
    omega
  · intro hlt
    linarith

end IsRounded

theorem roundMagnitude_lt_iff {x m : ℚ} (hx : 0 < x) (hm : IsRounded x m) :
    m < 2 ^ 53 * 2 ^ (971 : Int) ↔ x < (2 ^ 53 - 1 / 2) * 2 ^ (971 : Int) := by
  have hlower : (2 : ℚ) ^ Int.log 2 x ≤ x := by exact_mod_cast Int.zpow_log_le_self one_lt_two hx
  have hupper : x < 2 ^ (Int.log 2 x + 1) := by
    exact_mod_cast Int.lt_zpow_succ_log_self one_lt_two x
  have hpow (n : ℕ) : (2 : ℚ) ^ (n + 971 : Int) = 2 ^ n * 2 ^ (971 : Int) := by
    rw [zpow_add₀ two_ne_zero, zpow_natCast]
  rcases lt_trichotomy (Int.log 2 x) 1023 with hlog | hlog | hlog
  · -- Below the last binade there is room for both.
    have hunit : unitLog x ≤ (52 : ℕ) + 971 := by
      simp only [unitLog, fractionWidth, leastExponent]
      omega
    have hle : x ≤ 2 ^ ((52 : ℕ) + 971 : Int) :=
      hupper.le.trans (zpow_le_zpow_right₀ (by norm_num) (by omega))
    have hbound := hm.le_zpow hunit hle
    rw [hpow] at hle hbound
    exact iff_of_true (hbound.trans_lt (mul_lt_mul_of_pos_right (by norm_num) (by positivity)))
      (hle.trans_lt (mul_lt_mul_of_pos_right (by norm_num) (by positivity)))
  · exact hm.lt_iff_of_log_eq hlog
  · -- Past it there is none.
    have hunit : unitLog x ≤ Int.log 2 x := by
      simp only [unitLog, fractionWidth, leastExponent]
      omega
    have hlarge : (2 : ℚ) ^ ((53 : ℕ) + 971 : Int) ≤ 2 ^ Int.log 2 x :=
      zpow_le_zpow_right₀ (by norm_num) (by omega)
    rw [hpow] at hlarge
    have hhalf : (2 ^ 53 - 1 / 2 : ℚ) * 2 ^ (971 : Int) ≤ 2 ^ 53 * 2 ^ (971 : Int) :=
      mul_le_mul_of_nonneg_right (by norm_num) (by positivity)
    have hround := hlarge.trans (hm.zpow_le hunit hlower)
    exact iff_of_false (not_lt.2 hround) (not_lt.2 (hhalf.trans (hlarge.trans hlower)))

/-! ## Either sign -/

theorem round_neg (q : ℚ) : round (-q) = (round q).neg := by
  have hnum : (-q).num = -q.num := Rat.num_neg_eq_neg_num q
  have hden : (-q).den = q.den := Rat.den_neg_eq_den q
  rcases lt_trichotomy q.num 0 with hq | hq | hq
  · have hsign : ¬-q.num < 0 := by omega
    have hne : q.num ≠ 0 := by omega
    have hne' : -q.num ≠ 0 := by omega
    simp only [round, hnum, hden, Int.natAbs_neg, if_neg hne, if_neg hne', hsign, hq, if_true,
      if_false, decide_true, decide_false]
    split <;> simp [Value.neg]
  · obtain rfl : q = 0 := Rat.zero_of_num_zero hq
    decide +kernel
  · have hsign : ¬q.num < 0 := by omega
    have hsign' : -q.num < 0 := by omega
    have hne : q.num ≠ 0 := by omega
    have hne' : -q.num ≠ 0 := by omega
    simp only [round, hnum, hden, Int.natAbs_neg, if_neg hne, if_neg hne', hsign, hsign',
      if_true, if_false, decide_true, decide_false]
    split <;> simp [Value.neg]

theorem fits_neg {x : ℚ} : Fits (-x) ↔ Fits x := by rw [Fits, Fits, abs_neg]

theorem exists_round_iff_of_nonneg {x : ℚ} (hx : 0 ≤ x) : (∃ v, round x = .finite v) ↔ Fits x := by
  rw [Fits, abs_of_nonneg hx]
  rcases hx.eq_or_lt with rfl | hpos
  · refine iff_of_true ⟨0, by decide +kernel⟩ (mul_pos ?_ (by positivity))
    norm_num
  · have hsign : ¬x.num < 0 := by simpa using hx
    rw [← roundMagnitude_lt_iff hpos (isRounded_magnitude hpos), ← overflow_eq]
    simp only [round, if_neg (Rat.num_pos.2 hpos).ne', hsign, if_false, decide_false]
    generalize ((Nat.pow 2 overflowExponent : Nat) : ℚ) = bound
    by_cases hlarge : bound ≤ roundMagnitude x.num.natAbs x.den
    · rw [if_pos hlarge]
      refine iff_of_false ?_ (not_lt.2 hlarge)
      rintro ⟨v, ⟨⟩⟩
    · rw [if_neg hlarge]
      exact iff_of_true ⟨_, rfl⟩ (not_le.1 hlarge)

/-- A rational is rounded to a finite value exactly if it fits. -/
theorem exists_round_iff {x : ℚ} : (∃ v, round x = .finite v) ↔ Fits x := by
  rcases le_total 0 x with hx | hx
  · exact exists_round_iff_of_nonneg hx
  · rw [← fits_neg, ← exists_round_iff_of_nonneg (neg_nonneg.2 hx), round_neg]
    constructor
    · rintro ⟨v, hv⟩
      exact ⟨-v, by rw [hv, Value.neg]⟩
    · rintro ⟨v, hv⟩
      refine ⟨-v, ?_⟩
      rw [← neg_neg x, round_neg, round_neg, hv, Value.neg]

/-- **Rounding keeps the order**, also of negative rationals. -/
theorem round_le_round {p q v w : ℚ} (hpq : p ≤ q) (hv : round p = .finite v)
    (hw : round q = .finite w) : v ≤ w := by
  have hneg {x u : ℚ} (hu : round x = .finite u) : round (-x) = .finite (-u) := by
    rw [round_neg, hu, Value.neg]
  rcases le_total 0 p with hp | hp
  · exact round_mono hp hpq hv hw
  · rcases le_total 0 q with hq | hq
    · have hv' := round_nonneg (neg_nonneg.2 hp) (hneg hv)
      have hw' := round_nonneg hq hw
      linarith
    · have hle := round_mono (neg_nonneg.2 hq) (neg_le_neg hpq) (hneg hw) (hneg hv)
      linarith

end Binary64

namespace Pacer

/-- What is cut off towards zero keeps the order. -/
theorem tdiv_le_tdiv {p q : ℚ} (hpq : p ≤ q) : p.num.tdiv p.den ≤ q.num.tdiv q.den := by
  have hneg (x : ℚ) : x.num.tdiv x.den = -(-x).num.tdiv (-x).den := by
    rw [Rat.num_neg_eq_neg_num, Rat.den_neg_eq_den, Int.neg_tdiv, neg_neg]
  rcases le_total 0 p with hp | hp
  · rw [tdiv_eq_floor hp, tdiv_eq_floor (hp.trans hpq)]
    exact Int.floor_mono hpq
  · rw [hneg p, tdiv_eq_floor (neg_nonneg.2 hp)]
    rcases le_total 0 q with hq | hq
    · rw [tdiv_eq_floor hq]
      have hp' : 0 ≤ ⌊-p⌋ := Int.floor_nonneg.2 (neg_nonneg.2 hp)
      have hq' : 0 ≤ ⌊q⌋ := Int.floor_nonneg.2 hq
      omega
    · rw [hneg q, tdiv_eq_floor (neg_nonneg.2 hq)]
      have hle : ⌊-q⌋ ≤ ⌊-p⌋ := Int.floor_mono (neg_le_neg hpq)
      omega

/-! ## The count -/

/-- The cycles that a number of nanoseconds comes to, exactly. -/
def cycles (elapsed f : Int) : ℚ := (elapsed * f : Int) / 1000000000

variable {elapsed later anchor f : Int}

theorem floor_cycles (elapsed f : Int) : ⌊cycles elapsed f⌋ = elapsed * f / 10 ^ 9 := by
  rw [cycles]
  exact_mod_cast Int.floor_div_natCast ((elapsed * f : Int) : ℚ) 1000000000

/-- Up to `10 ^ 15` cycles fit in any case. -/
theorem fits_cycles (h : |elapsed * f| < 10 ^ 24) : Binary64.Fits (cycles elapsed f) := by
  have hlt : |((elapsed * f : Int) : ℚ)| < 10 ^ 24 := by exact_mod_cast h
  have hone : (1 : ℚ) ≤ 2 ^ (971 : Int) := one_le_zpow₀ (by norm_num) (by decide)
  calc |cycles elapsed f| = |((elapsed * f : Int) : ℚ)| / 1000000000 := by
        rw [cycles, abs_div, abs_of_pos (show (0 : ℚ) < 1000000000 by norm_num)]
    _ < 10 ^ 24 / 1000000000 := by gcongr
    _ ≤ (2 ^ 53 - 1 / 2) * 1 := by norm_num
    _ ≤ (2 ^ 53 - 1 / 2) * 2 ^ (971 : Int) := mul_le_mul_of_nonneg_left hone (by norm_num)

/-- The count is the rounded quotient, cut off. -/
theorem expected_of_round {v : ℚ} (hround : Binary64.round (cycles elapsed f) = .finite v) :
    expected (anchor + elapsed) anchor (.integer f) = .ok (v.num.tdiv v.den) := by
  have helapsed : anchor + elapsed - anchor = elapsed := by omega
  refine expected_eq_ok_iff.2 ⟨v, ?_, rfl⟩
  rwa [helapsed]

/-- A quotient of whole nanoseconds that has not reached a whole number is a billionth below it at
least. -/
theorem cycles_add_le : cycles elapsed f + 1 / 1000000000 ≤ (elapsed * f / 10 ^ 9 : Int) + 1 := by
  have hlt : elapsed * f + 1 ≤ (elapsed * f / 10 ^ 9 + 1) * 10 ^ 9 := by omega
  have hlt' : ((elapsed * f : Int) : ℚ) + 1 ≤ ((elapsed * f / 10 ^ 9 : Int) + 1) * 10 ^ 9 := by
    exact_mod_cast hlt
  rw [cycles, ← add_div, div_le_iff₀ (by norm_num)]
  norm_num at hlt' ⊢
  exact hlt'

/-- **Below `2 ^ 24` cycles** rounding reaches no whole number that the quotient has not reached. -/
theorem floor_round (hnonneg : 0 ≤ elapsed * f) (hbound : elapsed * f < 2 ^ 24 * 10 ^ 9) {v : ℚ}
    (hround : Binary64.round (cycles elapsed f) = .finite v) : ⌊v⌋ = elapsed * f / 10 ^ 9 := by
  have hcycles : 0 ≤ cycles elapsed f := by
    rw [cycles]
    positivity
  rcases Binary64.isRounded_of_round hcycles hround with ⟨hzero, rfl⟩ | ⟨hpos, hrounded⟩
  · rw [← floor_cycles, hzero]
  · have hlt : cycles elapsed f < 2 ^ (24 : Int) := by
      have hbound' : ((elapsed * f : Int) : ℚ) < 2 ^ 24 * 10 ^ 9 := by exact_mod_cast hbound
      rw [cycles, div_lt_iff₀ (by norm_num)]
      norm_num at hbound' ⊢
      exact hbound'
    have hlog : Int.log 2 (cycles elapsed f) < 24 :=
      (Int.lt_zpow_iff_log_lt one_lt_two hpos).1 (by exact_mod_cast hlt)
    have hunit : Binary64.unitLog (cycles elapsed f) ≤ -29 := by
      simp only [Binary64.unitLog, Binary64.fractionWidth, Binary64.leastExponent]
      omega
    rw [Int.floor_eq_iff]
    constructor
    · -- The whole number below the quotient is on the grid.
      obtain ⟨c, hc⟩ := Int.eq_ofNat_of_zero_le (show 0 ≤ elapsed * f / 10 ^ 9 by omega)
      have hfloor : (c : ℚ) * 2 ^ (0 : Int) ≤ cycles elapsed f := by
        have hle := Int.floor_le (cycles elapsed f)
        rw [floor_cycles, hc] at hle
        simpa using hle
      have hle := hrounded.mul_zpow_le (by omega) hfloor
      rw [hc]
      simpa using hle
    · -- Half a unit in the last place is less than a billionth.
      have hoff := hrounded.le_add_half
      have hhalf : (2 : ℚ) ^ Binary64.unitLog (cycles elapsed f) / 2 < 1 / 1000000000 := by
        have hle : (2 : ℚ) ^ Binary64.unitLog (cycles elapsed f) ≤ 2 ^ (-29 : Int) :=
          zpow_le_zpow_right₀ (by norm_num) hunit
        have hsmall : (2 : ℚ) ^ (-29 : Int) / 2 < 1 / 1000000000 := by norm_num
        exact lt_of_le_of_lt (by gcongr) hsmall
      have hroom : cycles elapsed f + 1 / 1000000000 ≤ (elapsed * f / 10 ^ 9 : Int) + 1 :=
        cycles_add_le
      linarith

/-- **The clock never runs ahead of the wall clock.** Whatever the anchor of a clock and its
frequency, a positive integer, the count that it should show after some nanoseconds is exact as long
as they come to less than `2 ^ 24` cycles. And as long as the cycles fit a floating-point value,
there is a count, and it never goes back. -/
theorem clock_never_ahead (anchor : Int) {f : Int} (hf : 0 < f) :
    (∀ elapsed, 0 ≤ elapsed → elapsed * f < 2 ^ 24 * 10 ^ 9 →
      expected (anchor + elapsed) anchor (.integer f) = .ok (elapsed * f / 10 ^ 9)) ∧
    ∀ elapsed later, elapsed ≤ later → Binary64.Fits (cycles elapsed f) →
      Binary64.Fits (cycles later f) →
      ∃ m n, expected (anchor + elapsed) anchor (.integer f) = .ok m ∧
        expected (anchor + later) anchor (.integer f) = .ok n ∧ m ≤ n := by
  constructor
  · intro elapsed helapsed hbound
    have hnonneg : 0 ≤ elapsed * f := Int.mul_nonneg helapsed hf.le
    have hcycles : 0 ≤ cycles elapsed f := by
      rw [cycles]
      positivity
    have hle : cycles elapsed f ≤ 2 ^ (24 : Int) := by
      have hbound' : ((elapsed * f : Int) : ℚ) ≤ 2 ^ 24 * 10 ^ 9 := by exact_mod_cast hbound.le
      rw [cycles, div_le_iff₀ (by norm_num)]
      norm_num at hbound' ⊢
      exact hbound'
    obtain ⟨v, hround, hv, -⟩ := Binary64.exists_round_le hcycles hle (by decide) (by decide)
    rw [expected_of_round hround, tdiv_eq_floor hv, floor_round hnonneg hbound hround]
  · intro elapsed later hlater hfits hfits'
    obtain ⟨v, hv⟩ := Binary64.exists_round_iff.2 hfits
    obtain ⟨w, hw⟩ := Binary64.exists_round_iff.2 hfits'
    have hle : cycles elapsed f ≤ cycles later f := by
      have hmore : elapsed * f ≤ later * f := Int.mul_le_mul_of_nonneg_right hlater hf.le
      have hmore' : ((elapsed * f : Int) : ℚ) ≤ (later * f : Int) := by exact_mod_cast hmore
      rw [cycles, cycles]
      gcongr
    exact ⟨_, _, expected_of_round hv, expected_of_round hw,
      tdiv_le_tdiv (Binary64.round_le_round hle hv hw)⟩

/-- One nanosecond before the end of the last second that is counted exactly, at one cycle a second,
and a minute that passes from before the anchor. -/
theorem clock_never_ahead_last :
    (0 : Int) < 1 ∧ expected (7 + 16777215999999999) 7 (.integer 1) = .ok 16777215 ∧
      ∃ m n, expected (7 + -1500000000) 7 (.integer 1) = .ok m ∧
        expected (7 + 58500000000) 7 (.integer 1) = .ok n ∧
        m ≤ n :=
  ⟨by decide,
    (clock_never_ahead 7 (f := 1) (by decide)).1 16777215999999999 (by decide) (by decide),
    (clock_never_ahead 7 (f := 1) (by decide)).2 (-1500000000) 58500000000 (by decide)
      (fits_cycles (by decide)) (fits_cycles (by decide))⟩

/-- A second later, the count is a cycle ahead. -/
example : expected (7 + 16777216999999999) 7 (.integer 1) = .ok 16777217 := by decide +kernel

end Pacer

end Chip8
