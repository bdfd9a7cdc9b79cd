import Chip8.Number.Binary64
import Mathlib.Algebra.Order.Field.Power
import Mathlib.Data.Int.Log
import Mathlib.Data.Rat.Floor
import Mathlib.Tactic.FieldSimp
import Mathlib.Tactic.Linarith
import Mathlib.Tactic.Positivity

/-!
# Rounding

A positive rational is rounded on a grid that depends on its binary logarithm: to a whole number of
units in the last place, the nearest one, and the even one of two equally near. Rounding keeps the
order of rationals, within one grid since the nearest whole numbers keep it, and between two grids
since the power of two that separates them lies on both.

## Main definitions

* `Binary64.IsNearest`: a whole number is nearest to a rational, and even if there are two
* `Binary64.unitLog`: the exponent of the unit in the last place
* `Binary64.IsRounded`: a multiple of the unit in the last place is nearest to a rational

## Main statements

* `Binary64.quotientLog2_eq`: the exponent is the binary logarithm
* `Binary64.isRounded_of_round`: what rounding to a finite value comes to
* `Binary64.round_mono`: rounding keeps the order
-/

namespace Chip8.Binary64

theorem pow2_eq (e : Int) : pow2 e = (2 : ℚ) ^ e := by
  rw [pow2]
  split
  next h =>
    obtain ⟨n, rfl⟩ := Int.eq_ofNat_of_zero_le h
    simp
  next h =>
    obtain ⟨n, hn⟩ := Int.eq_ofNat_of_zero_le (show 0 ≤ -e by omega)
    obtain rfl : e = -(n : Int) := by omega
    simp [Rat.mkRat_eq_div]

/-! ## Nearest whole numbers -/

/-- The whole number `n` is nearest to `x`, and even if there is another as near. -/
structure IsNearest (x : ℚ) (n : ℕ) : Prop where
  lower : (n : ℚ) - 1 / 2 ≤ x
  upper : x ≤ n + 1 / 2
  tie : x = n - 1 / 2 ∨ x = n + 1 / 2 → n % 2 = 0

namespace IsNearest

variable {x y : ℚ} {m n k : ℕ}

theorem mono (hm : IsNearest x m) (hn : IsNearest y n) (hxy : x ≤ y) : m ≤ n := by
  by_contra hlt
  have hsucc : (n : ℚ) + 1 ≤ m := by exact_mod_cast Nat.lt_of_not_le hlt
  have hlower := hm.lower
  have hupper := hn.upper
  -- There is no room left: both are in the middle between `n` and `n + 1`, and both are even.
  have hmid : x = n + 1 / 2 := by linarith
  have hnext : (m : ℚ) = n + 1 := by linarith
  have hm' := hm.tie (Or.inl (by linarith))
  have hn' := hn.tie (Or.inr (by linarith))
  have hsame : m = n + 1 := by exact_mod_cast hnext
  omega

theorem natCast (k : ℕ) : IsNearest k k where
  lower := by linarith
  upper := by linarith
  tie := by
    rintro (h | h)
    · linarith
    · linarith

theorem le_natCast (hn : IsNearest x n) (hx : x ≤ k) : n ≤ k := hn.mono (natCast k) hx

theorem natCast_le (hn : IsNearest x n) (hx : (k : ℚ) ≤ x) : k ≤ n := (natCast k).mono hn hx

end IsNearest

theorem isNearest_nearestEven (a : ℕ) {b : ℕ} (hb : 0 < b) :
    IsNearest (a / b) (nearestEven a b) := by
  have hb' : (0 : ℚ) < b := by exact_mod_cast hb
  have hlt : a % b < b := Nat.mod_lt a hb
  have hdiv : (a : ℚ) = b * (a / b : ℕ) + (a % b : ℕ) := by
    exact_mod_cast (Nat.div_add_mod a b).symm
  rw [nearestEven]
  generalize a / b = q at *
  generalize a % b = r at *
  have hquotient : (a / b : ℚ) = q + r / b := by
    rw [hdiv]
    field_simp
  have hnonneg : 0 ≤ (r : ℚ) / b := by positivity
  have hone : (r : ℚ) / b < 1 := by
    rw [div_lt_one hb']
    exact_mod_cast hlt
  rw [hquotient]
  split
  next hbelow =>
    have hhalf : (r : ℚ) / b < 1 / 2 := by
      rw [div_lt_iff₀ hb']
      have hbelow' : (2 : ℚ) * r < b := by exact_mod_cast hbelow
      linarith
    refine ⟨by linarith, by linarith, ?_⟩
    rintro (h | h)
    · linarith
    · linarith
  next hbelow =>
    split
    next habove =>
      have hhalf : 1 / 2 < (r : ℚ) / b := by
        rw [lt_div_iff₀ hb']
        have habove' : (b : ℚ) < 2 * r := by exact_mod_cast habove
        linarith
      have hcast : ((q + 1 : ℕ) : ℚ) = q + 1 := Nat.cast_succ q
      refine ⟨by linarith, by linarith, ?_⟩
      rintro (h | h)
      · linarith
      · linarith
    next habove =>
      have hhalf : (r : ℚ) / b = 1 / 2 := by
        rw [div_eq_iff (ne_of_gt hb')]
        have hmid : (2 : ℚ) * r = b := by exact_mod_cast (by omega : 2 * r = b)
        linarith
      -- In the middle, the even one of the two neighbours is taken.
      rcases Nat.mod_two_eq_zero_or_one q with hq | hq
      · rw [hq, Nat.add_zero]
        exact ⟨by linarith, by linarith, fun _ => hq⟩
      · rw [hq]
        have hcast : ((q + 1 : ℕ) : ℚ) = q + 1 := Nat.cast_succ q
        exact ⟨by linarith, by linarith, fun _ => by omega⟩

/-! ## The unit in the last place -/

theorem pow2_le_div_iff {a b : ℕ} (hb : 0 < b) (e : Int) :
    (2 : ℚ) ^ e ≤ a / b ↔
      if 0 ≤ e then b * Nat.pow 2 e.toNat ≤ a else b ≤ a * Nat.pow 2 (-e).toNat := by
  have hb' : (0 : ℚ) < b := by exact_mod_cast hb
  rw [le_div_iff₀ hb']
  split
  next h =>
    obtain ⟨n, rfl⟩ := Int.eq_ofNat_of_zero_le h
    rw [zpow_natCast, Int.toNat_natCast, mul_comm]
    exact_mod_cast Iff.rfl
  next h =>
    obtain ⟨n, hn⟩ := Int.eq_ofNat_of_zero_le (show 0 ≤ -e by omega)
    obtain rfl : e = -(n : Int) := by omega
    rw [zpow_neg, zpow_natCast, inv_mul_le_iff₀ (by positivity), neg_neg,
      Int.toNat_natCast, mul_comm]
    exact_mod_cast Iff.rfl

/-- The logarithms of numerator and denominator tell the logarithm of a quotient up to one. -/
theorem log_div_bounds {a b : ℕ} (ha : 0 < a) (hb : 0 < b) :
    (a.log2 : Int) - b.log2 - 1 ≤ Int.log 2 ((a : ℚ) / b) ∧
      Int.log 2 ((a : ℚ) / b) < (a.log2 : Int) - b.log2 + 1 := by
  have hb' : (0 : ℚ) < b := by exact_mod_cast hb
  have hx : (0 : ℚ) < a / b := by positivity
  have hpow (e : Int) (n : ℕ) : (2 : ℚ) ^ e * 2 ^ n = 2 ^ (e + n) := by
    rw [zpow_add₀ two_ne_zero, zpow_natCast]
  constructor
  · refine (Int.zpow_le_iff_le_log one_lt_two hx).1 ?_
    rw [le_div_iff₀ hb']
    calc (2 : ℚ) ^ ((a.log2 : Int) - b.log2 - 1) * b
        ≤ 2 ^ ((a.log2 : Int) - b.log2 - 1) * 2 ^ (b.log2 + 1) := by
          gcongr
          exact_mod_cast (Nat.lt_log2_self (n := b)).le
      _ = 2 ^ a.log2 := by
          rw [hpow, ← zpow_natCast]
          congr 1
          push_cast
          ring
      _ ≤ a := by exact_mod_cast Nat.log2_self_le ha.ne'
  · refine (Int.lt_zpow_iff_log_lt one_lt_two hx).1 ?_
    rw [div_lt_iff₀ hb']
    calc (a : ℚ) < 2 ^ (a.log2 + 1) := by exact_mod_cast Nat.lt_log2_self
      _ = 2 ^ ((a.log2 : Int) - b.log2 + 1) * 2 ^ b.log2 := by
          rw [hpow, ← zpow_natCast]
          congr 1
          push_cast
          ring
      _ ≤ 2 ^ ((a.log2 : Int) - b.log2 + 1) * b := by
          gcongr
          exact_mod_cast Nat.log2_self_le hb.ne'

/-- The exponent is the binary logarithm. -/
theorem quotientLog2_eq {a b : ℕ} (ha : 0 < a) (hb : 0 < b) :
    quotientLog2 a b = Int.log 2 ((a : ℚ) / b) := by
  have hx : (0 : ℚ) < a / b := by positivity
  obtain ⟨hlower, hupper⟩ := log_div_bounds ha hb
  have htest := (pow2_le_div_iff (a := a) hb ((a.log2 : Int) - b.log2)).symm.trans
    (Int.zpow_le_iff_le_log one_lt_two hx)
  simp only [quotientLog2]
  split at htest
  next hexponent =>
    rw [if_pos hexponent]
    split <;> omega
  next hexponent =>
    rw [if_neg hexponent]
    split <;> omega

/-- The exponent of the unit in the last place at a positive rational. -/
def unitLog (x : ℚ) : Int := max (Int.log 2 x - fractionWidth) leastExponent

/-- The multiple `m` of the unit in the last place is nearest to `x`. -/
def IsRounded (x m : ℚ) : Prop := ∃ n, IsNearest (x / 2 ^ unitLog x) n ∧ m = n * 2 ^ unitLog x

theorem isNearest_units (a : ℕ) {b : ℕ} (hb : 0 < b) (e : Int) :
    IsNearest (a / b / 2 ^ e) (units a b e) := by
  rw [units]
  split
  next h =>
    obtain ⟨n, rfl⟩ := Int.eq_ofNat_of_zero_le h
    have hnearest := isNearest_nearestEven a (b := b * 2 ^ n) (by positivity)
    rw [zpow_natCast, div_div]
    exact_mod_cast hnearest
  next h =>
    obtain ⟨n, hn⟩ := Int.eq_ofNat_of_zero_le (show 0 ≤ -e by omega)
    obtain rfl : e = -(n : Int) := by omega
    have hnearest := isNearest_nearestEven (a * 2 ^ n) hb
    rw [zpow_neg, zpow_natCast, div_inv_eq_mul, div_mul_eq_mul_div, neg_neg, Int.toNat_natCast]
    exact_mod_cast hnearest

theorem isRounded_roundMagnitude {a b : ℕ} (ha : 0 < a) (hb : 0 < b) :
    IsRounded (a / b) (roundMagnitude a b) := by
  have hunit : unitExponent a b = unitLog (a / b) := by
    rw [unitExponent, quotientLog2_eq ha hb, unitLog]
  refine ⟨units a b (unitLog (a / b)), isNearest_units a hb _, ?_⟩
  simp only [roundMagnitude, hunit, pow2_eq]

namespace IsRounded

variable {x y m n : ℚ}

theorem nonneg (hm : IsRounded x m) : 0 ≤ m := by
  obtain ⟨k, -, rfl⟩ := hm
  positivity

/-- The power of two `2 ^ e` is on the grid of `x`, so it is a bound for `x` only if it is one for
what `x` is rounded to. -/
theorem exists_units {e : Int} (he : unitLog x ≤ e) : ∃ k : ℕ, (2 : ℚ) ^ e = k * 2 ^ unitLog x := by
  obtain ⟨j, hj⟩ := Int.eq_ofNat_of_zero_le (show 0 ≤ e - unitLog x by omega)
  refine ⟨2 ^ j, ?_⟩
  rw [Nat.cast_pow, Nat.cast_ofNat, ← zpow_natCast, ← hj, ← zpow_add₀ two_ne_zero, sub_add_cancel]

theorem le_zpow (hm : IsRounded x m) {e : Int} (he : unitLog x ≤ e) (hx : x ≤ 2 ^ e) :
    m ≤ 2 ^ e := by
  obtain ⟨k, hk, rfl⟩ := hm
  obtain ⟨j, hj⟩ := exists_units he
  rw [hj] at hx ⊢
  have hkj : k ≤ j := hk.le_natCast (by rwa [div_le_iff₀ (by positivity)])
  gcongr

theorem zpow_le (hm : IsRounded x m) {e : Int} (he : unitLog x ≤ e) (hx : 2 ^ e ≤ x) :
    2 ^ e ≤ m := by
  obtain ⟨k, hk, rfl⟩ := hm
  obtain ⟨j, hj⟩ := exists_units he
  rw [hj] at hx ⊢
  have hjk : j ≤ k := hk.natCast_le (by rwa [le_div_iff₀ (by positivity)])
  gcongr

/-- Rounding keeps the order. -/
theorem mono (hm : IsRounded x m) (hn : IsRounded y n) (hx : 0 < x) (hxy : x ≤ y) : m ≤ n := by
  have hy : 0 < y := hx.trans_le hxy
  have hlog : Int.log 2 x ≤ Int.log 2 y := Int.log_mono_right hx hxy
  by_cases hunit : unitLog x = unitLog y
  · -- On one grid, the nearest whole numbers keep the order.
    obtain ⟨k, hk, rfl⟩ := hm
    obtain ⟨j, hj, rfl⟩ := hn
    rw [hunit] at hk ⊢
    have hkj : k ≤ j := hk.mono hj (by gcongr)
    gcongr
  · -- A power of two between the two is on both grids.
    have hlt : unitLog x ≤ Int.log 2 y ∧ unitLog y ≤ Int.log 2 y ∧
        Int.log 2 x + 1 ≤ Int.log 2 y := by
      simp only [unitLog, fractionWidth, leastExponent] at hunit ⊢
      omega
    obtain ⟨hux, huy, hsucc⟩ := hlt
    have hxlt : x < 2 ^ (Int.log 2 x + 1) := by
      exact_mod_cast Int.lt_zpow_succ_log_self one_lt_two x
    have hyle : (2 : ℚ) ^ Int.log 2 y ≤ y := by exact_mod_cast Int.zpow_log_le_self one_lt_two hy
    have hbetween : (2 : ℚ) ^ (Int.log 2 x + 1) ≤ 2 ^ Int.log 2 y :=
      zpow_le_zpow_right₀ (by norm_num) hsucc
    exact (hm.le_zpow hux (hxlt.le.trans hbetween)).trans (hn.zpow_le huy hyle)

end IsRounded

/-! ## Rounding to a value -/

theorem round_ne_nan (q : ℚ) : round q ≠ .nan := by
  simp only [round]
  generalize (if q.num = 0 then 0 else roundMagnitude q.num.natAbs q.den) = m
  generalize ((Nat.pow 2 overflowExponent : Nat) : ℚ) = bound
  by_cases hlarge : bound ≤ m
  · rw [if_pos hlarge]
    simp
  · rw [if_neg hlarge]
    simp

theorem isRounded_magnitude {q : ℚ} (hq : 0 < q) :
    IsRounded q (roundMagnitude q.num.natAbs q.den) := by
  have hnum : 0 < q.num := Rat.num_pos.2 hq
  have hrounded := isRounded_roundMagnitude (a := q.num.natAbs) (by omega) q.den_pos
  have hself : ((q.num.natAbs : ℕ) : ℚ) / q.den = q := by
    rw [Nat.cast_natAbs, abs_of_pos hnum, Rat.num_div_den]
  rwa [hself] at hrounded

/-- What rounding a rational that is not negative to a finite value comes to. -/
theorem isRounded_of_round {q v : ℚ} (hq : 0 ≤ q) (h : round q = .finite v) :
    q = 0 ∧ v = 0 ∨ 0 < q ∧ IsRounded q v := by
  have hsign : ¬q.num < 0 := by simpa using hq
  simp only [round, hsign, if_false] at h
  generalize ((Nat.pow 2 overflowExponent : Nat) : ℚ) = bound at h
  obtain rfl : (if q.num = 0 then 0 else roundMagnitude q.num.natAbs q.den) = v := by
    by_cases hlarge : bound ≤ if q.num = 0 then 0 else roundMagnitude q.num.natAbs q.den
    · rw [if_pos hlarge] at h
      cases h
    · rw [if_neg hlarge] at h
      exact Value.finite.inj h
  rcases hq.eq_or_lt with rfl | hpos
  · exact Or.inl ⟨rfl, rfl⟩
  · rw [if_neg (Rat.num_pos.2 hpos).ne']
    exact Or.inr ⟨hpos, isRounded_magnitude hpos⟩

theorem round_nonneg {q v : ℚ} (hq : 0 ≤ q) (h : round q = .finite v) : 0 ≤ v := by
  rcases isRounded_of_round hq h with ⟨-, rfl⟩ | ⟨-, hv⟩
  · exact le_rfl
  · exact hv.nonneg

/-- A rational up to a power of two that is not too large is rounded to a finite value up to
there. -/
theorem exists_round_le {q : ℚ} {e : Int} (hq : 0 ≤ q) (hle : q ≤ 2 ^ e) (hlow : leastExponent ≤ e)
    (hhigh : e < overflowExponent) : ∃ v, round q = .finite v ∧ 0 ≤ v ∧ v ≤ 2 ^ e := by
  rcases hq.eq_or_lt with rfl | hpos
  · exact ⟨0, by decide +kernel, le_rfl, hle⟩
  · have hsign : ¬q.num < 0 := by simpa using hq
    have hlog : Int.log 2 q ≤ e := by
      have hmono : Int.log 2 q ≤ Int.log 2 ((2 : ℚ) ^ e) := Int.log_mono_right hpos hle
      have hpow : Int.log 2 ((2 : ℚ) ^ e) = e := by
        exact_mod_cast Int.log_zpow (R := ℚ) one_lt_two e
      rwa [hpow] at hmono
    have hunit : unitLog q ≤ e := by
      simp only [unitLog, fractionWidth]
      omega
    have hrounded := isRounded_magnitude hpos
    have hbound := hrounded.le_zpow hunit hle
    have hsmall : ¬((Nat.pow 2 overflowExponent : Nat) : ℚ) ≤
        roundMagnitude q.num.natAbs q.den := by
      have hpow : (2 : ℚ) ^ e < 2 ^ (overflowExponent : Int) := zpow_lt_zpow_right₀ one_lt_two hhigh
      rw [zpow_natCast] at hpow
      rw [not_le, Nat.pow_eq, Nat.cast_pow, Nat.cast_ofNat]
      exact hbound.trans_lt hpow
    refine ⟨_, ?_, hrounded.nonneg, hbound⟩
    simp only [round, hsign, if_false, if_neg (Rat.num_pos.2 hpos).ne', if_neg hsmall]

/-- **Rounding keeps the order.** -/
theorem round_mono {p q v w : ℚ} (hp : 0 ≤ p) (hpq : p ≤ q) (hv : round p = .finite v)
    (hw : round q = .finite w) : v ≤ w := by
  rcases isRounded_of_round hp hv with ⟨-, rfl⟩ | ⟨hpos, hv'⟩
  · exact round_nonneg (hp.trans hpq) hw
  · rcases isRounded_of_round (hp.trans hpq) hw with ⟨rfl, -⟩ | ⟨-, hw'⟩
    · exact absurd hpq (not_le.2 hpos)
    · exact hv'.mono hw' hpos hpq

end Chip8.Binary64
