/-
# The nearest float of a quotient

Rounding looks at a quotient only through its value: two pairs of numerator
and denominator with the same quotient have the same nearest float.  And
rounding is exact where it can be: the nearest float of the exact magnitude of
a finite pattern is that pattern.

The binary logarithm that rounding starts from is the one of the rational
quotient, which is what makes it independent of the pair.
-/

import Mathlib.Data.Int.Log
import Mathlib.Tactic.Ring
import Mathlib.Tactic.Linarith
import Mathlib.Data.Rat.Floor
import Lox.Number.Binary64

namespace Lox.Binary64

variable {numerator denominator : Nat}

theorem two_zpow (e : Int) : (2 : ℚ) ^ e = 2 ^ e.toNat / 2 ^ (-e).toNat := by
  rcases le_total 0 e with nonneg | nonpos
  · have none : (-e).toNat = 0 := by omega
    have whole : (e.toNat : Int) = e := by omega
    rw [none, pow_zero, div_one, ← zpow_natCast, whole]
  · have none : e.toNat = 0 := by omega
    have whole : ((-e).toNat : Int) = -e := by omega
    rw [none, pow_zero, one_div, ← zpow_natCast, ← zpow_neg, whole, neg_neg]

/-- A power of two is compared with a quotient by cross multiplication. -/
theorem two_zpow_le_iff (positive : 0 < denominator) (e : Int) :
    (2 : ℚ) ^ e ≤ (numerator : ℚ) / denominator ↔
      denominator * 2 ^ e.toNat ≤ numerator * 2 ^ (-e).toNat := by
  rw [two_zpow, div_le_div_iff₀ (by positivity) (by exact_mod_cast positive), mul_comm]
  norm_cast

theorem le_log_iff (some : 0 < numerator) (positive : 0 < denominator) (e : Int) :
    e ≤ Int.log 2 ((numerator : ℚ) / denominator) ↔
      denominator * 2 ^ e.toNat ≤ numerator * 2 ^ (-e).toNat := by
  have quotient : (0 : ℚ) < (numerator : ℚ) / denominator := by positivity
  rw [← two_zpow_le_iff positive, ← Int.zpow_le_iff_le_log Nat.one_lt_two quotient]
  norm_cast

/-- The estimate of the logarithm is at most one too large. -/
theorem floorLog2_eq_log (some : 0 < numerator) (positive : 0 < denominator) :
    floorLog2 numerator denominator = Int.log 2 ((numerator : ℚ) / denominator) := by
  have least := Nat.log2_self_le some.ne'
  have least' := Nat.log2_self_le positive.ne'
  have most : numerator < 2 ^ (numerator.log2 + 1) := Nat.lt_log2_self
  have most' : denominator < 2 ^ (denominator.log2 + 1) := Nat.lt_log2_self
  simp only [floorLog2, Nat.pow_eq]
  generalize numerator.log2 = first at least most ⊢
  generalize denominator.log2 = second at least' most' ⊢
  have low : (first : Int) - second - 1 ≤ Int.log 2 ((numerator : ℚ) / denominator) := by
    rw [← Int.zpow_le_iff_le_log Nat.one_lt_two (by positivity), le_div_iff₀ (by positivity)]
    have scaled : (2 : ℚ) ^ ((first : Int) - second - 1) * 2 ^ (second + 1) = 2 ^ first := by
      rw [← zpow_natCast, ← zpow_natCast, ← zpow_add₀ two_ne_zero]
      congr 1
      push_cast
      ring
    calc ((2 : ℕ) : ℚ) ^ ((first : Int) - second - 1) * denominator
        ≤ (2 : ℚ) ^ ((first : Int) - second - 1) * 2 ^ (second + 1) := by
          push_cast
          apply mul_le_mul_of_nonneg_left _ (zpow_nonneg zero_le_two _)
          exact_mod_cast most'.le
      _ = 2 ^ first := scaled
      _ ≤ numerator := by exact_mod_cast least
  have high : Int.log 2 ((numerator : ℚ) / denominator) < (first : Int) - second + 1 := by
    rw [← Int.lt_zpow_iff_log_lt Nat.one_lt_two (by positivity), div_lt_iff₀ (by positivity)]
    have scaled : (2 : ℚ) ^ ((first : Int) - second + 1) * 2 ^ second = 2 ^ (first + 1) := by
      rw [← zpow_natCast, ← zpow_natCast, ← zpow_add₀ two_ne_zero]
      congr 1
      push_cast
      ring
    calc (numerator : ℚ) < 2 ^ (first + 1) := by exact_mod_cast most
      _ = (2 : ℚ) ^ ((first : Int) - second + 1) * 2 ^ second := scaled.symm
      _ ≤ ((2 : ℕ) : ℚ) ^ ((first : Int) - second + 1) * denominator := by
          push_cast
          apply mul_le_mul_of_nonneg_left _ (zpow_nonneg zero_le_two _)
          exact_mod_cast least'
  have reached := le_log_iff some positive ((first : Int) - second)
  by_cases enough : denominator * 2 ^ ((first : Int) - second).toNat ≤
      numerator * 2 ^ (-((first : Int) - second)).toNat
  · have := reached.2 enough
    rw [if_pos enough]
    omega
  · have := mt reached.1 enough
    rw [if_neg enough]
    omega

/-- A common factor does not change what a quotient is rounded to. -/
theorem quotientToEven_mul (factor : Nat) (some : 0 < factor) :
    quotientToEven (numerator * factor) (denominator * factor) =
      quotientToEven numerator denominator := by
  have doubled : 2 * (numerator % denominator * factor) = 2 * (numerator % denominator) * factor :=
    (Nat.mul_assoc ..).symm
  have order (a b : Nat) : compare (a * factor) (b * factor) = compare a b := by
    rcases lt_trichotomy a b with less | rfl | greater
    · rw [compare_lt_iff_lt.2 less, compare_lt_iff_lt.2 (Nat.mul_lt_mul_of_pos_right less some)]
    · rw [compare_eq_iff_eq.2 rfl, compare_eq_iff_eq.2 rfl]
    · rw [compare_gt_iff_gt.2 greater,
        compare_gt_iff_gt.2 (Nat.mul_lt_mul_of_pos_right greater some)]
  unfold quotientToEven
  rw [Nat.mul_div_mul_right _ _ some, Nat.mul_mod_mul_right, doubled, order]

/-- What a quotient is rounded to depends on its value only. -/
theorem quotientToEven_congr {numerator' denominator' : Nat} (positive : 0 < denominator)
    (positive' : 0 < denominator') (same : numerator * denominator' = numerator' * denominator) :
    quotientToEven numerator denominator = quotientToEven numerator' denominator' := by
  rw [← quotientToEven_mul denominator' positive', same, Nat.mul_comm denominator,
    quotientToEven_mul denominator positive]

theorem quotientToEven_mul_self (value : Nat) (positive : 0 < denominator) :
    quotientToEven (value * denominator) denominator = value := by
  have none : compare (2 * 0) denominator = .lt := compare_lt_iff_lt.2 positive
  unfold quotientToEven
  rw [Nat.mul_mod_left, none, Nat.mul_div_cancel _ positive]

/-- The nearest float of a quotient depends on the value of the quotient only. -/
theorem nearest_congr {numerator' denominator' : Nat} (positive : 0 < denominator)
    (positive' : 0 < denominator') (same : numerator * denominator' = numerator' * denominator) :
    nearest numerator denominator = nearest numerator' denominator' := by
  by_cases none : numerator = 0
  · have none' : numerator' = 0 := by
      rw [none, Nat.zero_mul] at same
      exact (Nat.mul_eq_zero.1 same.symm).resolve_right positive.ne'
    rw [nearest, nearest, if_pos none, if_pos none']
  · have some := Nat.pos_of_ne_zero none
    have some' : 0 < numerator' := by
      apply Nat.pos_of_ne_zero
      rintro rfl
      rw [Nat.zero_mul] at same
      exact none ((Nat.mul_eq_zero.1 same).resolve_right positive'.ne')
    have quotients : (numerator : ℚ) / denominator = (numerator' : ℚ) / denominator' := by
      rw [div_eq_div_iff (by positivity) (by positivity)]
      exact_mod_cast same
    have logs : floorLog2 numerator denominator = floorLog2 numerator' denominator' := by
      rw [floorLog2_eq_log some positive, floorLog2_eq_log some' positive', quotients]
    rw [nearest, nearest, if_neg none, if_neg some'.ne', logs]
    generalize max (floorLog2 numerator' denominator' - storedBits) leastScale = scale
    have rounded : quotientToEven (numerator * Nat.pow 2 (-scale).toNat)
          (denominator * Nat.pow 2 scale.toNat) =
        quotientToEven (numerator' * Nat.pow 2 (-scale).toNat)
          (denominator' * Nat.pow 2 scale.toNat) := by
      have power (exponent : Nat) : 0 < Nat.pow 2 exponent := Nat.pow_pos Nat.two_pos
      apply quotientToEven_congr
      · exact Nat.mul_pos positive (power _)
      · exact Nat.mul_pos positive' (power _)
      · calc numerator * Nat.pow 2 (-scale).toNat * (denominator' * Nat.pow 2 scale.toNat)
            = numerator * denominator' * (Nat.pow 2 (-scale).toNat * Nat.pow 2 scale.toNat) := by
              ring
          _ = numerator' * denominator * (Nat.pow 2 (-scale).toNat * Nat.pow 2 scale.toNat) := by
              rw [same]
          _ = numerator' * Nat.pow 2 (-scale).toNat * (denominator * Nat.pow 2 scale.toNat) := by
              ring
    simp only [rounded]

/-! ## Magnitudes of finite patterns -/

variable {pattern : Nat}

theorem significand_pos_of_normal (normal : exponentField pattern ≠ 0) :
    2 ^ storedBits ≤ significand pattern := by
  rw [significand, if_neg normal]
  exact Nat.le_add_right _ _

theorem significand_lt (pattern : Nat) : significand pattern < 2 ^ (storedBits + 1) := by
  have bits : pattern % 2 ^ storedBits < 2 ^ storedBits := Nat.mod_lt _ (Nat.two_pow_pos _)
  rw [significand]
  split
  · next subnormal =>
      have small : pattern < 2 ^ storedBits :=
        (Nat.div_eq_zero_iff.1 subnormal).resolve_left (Nat.two_pow_pos _).ne'
      rw [Nat.pow_succ]
      omega
  · rw [Nat.pow_succ, Nat.pow_eq]
    omega

theorem significand_lt_of_subnormal (subnormal : exponentField pattern = 0) :
    significand pattern < 2 ^ storedBits := by
  rw [significand, if_pos subnormal]
  exact (Nat.div_eq_zero_iff.1 subnormal).resolve_left (Nat.two_pow_pos _).ne'

theorem leastScale_le_scale (pattern : Nat) : leastScale ≤ scale pattern := by
  rw [scale]
  omega

/-- A pattern is put together from its scale and its significand. -/
theorem scale_add_significand (pattern : Nat) :
    (scale pattern - leastScale).toNat * 2 ^ storedBits + significand pattern = pattern := by
  have steps : (scale pattern - leastScale).toNat = exponentField pattern - 1 := by
    rw [scale]
    omega
  rw [steps, significand]
  split
  · next subnormal => rw [subnormal, Nat.zero_sub, Nat.zero_mul, Nat.zero_add]
  · next normal =>
      have whole :
          2 ^ storedBits * (pattern / 2 ^ storedBits) + pattern % 2 ^ storedBits = pattern :=
        Nat.div_add_mod pattern (2 ^ storedBits)
      obtain ⟨less, same⟩ := Nat.exists_eq_succ_of_ne_zero normal
      rw [same, Nat.succ_sub_one, Nat.pow_eq, ← Nat.add_assoc, ← Nat.succ_mul, ← same]
      rw [Nat.mul_comm] at whole
      exact whole

/-- The exact magnitude as a rational number. -/
theorem scaled_eq (value : Nat) (scale : Int) :
    (scaledNumerator value scale : ℚ) / scaledDenominator scale = value * 2 ^ scale := by
  rw [two_zpow, scaledNumerator, scaledDenominator, mul_div_assoc']
  push_cast [Nat.pow_eq]
  rfl

/-- Rounding a significant magnitude happens at its own scale. -/
theorem max_floorLog2_magnitude (some : 0 < significand pattern) :
    max (floorLog2 (scaledNumerator (significand pattern) (scale pattern))
      (scaledDenominator (scale pattern)) - storedBits) leastScale = scale pattern := by
  have numerator : 0 < scaledNumerator (significand pattern) (scale pattern) :=
    Nat.mul_pos some (Nat.two_pow_pos _)
  have denominator : 0 < scaledDenominator (scale pattern) := Nat.two_pow_pos _
  have power : (0 : ℚ) < 2 ^ scale pattern := zpow_pos two_pos _
  rw [floorLog2_eq_log numerator denominator, scaled_eq]
  have positive : (0 : ℚ) < significand pattern * 2 ^ scale pattern := by positivity
  have below {bits : Nat} (less : significand pattern < 2 ^ bits) :
      Int.log 2 ((significand pattern : ℚ) * 2 ^ scale pattern) < bits + scale pattern := by
    rw [← Int.lt_zpow_iff_log_lt Nat.one_lt_two positive, Nat.cast_two, zpow_add₀ two_ne_zero,
      zpow_natCast]
    apply mul_lt_mul_of_pos_right _ power
    exact_mod_cast less
  by_cases subnormal : exponentField pattern = 0
  · have same : scale pattern = leastScale := by
      rw [scale, subnormal]
      rfl
    have := below (significand_lt_of_subnormal subnormal)
    rw [same] at this ⊢
    omega
  · have above : (storedBits : Int) + scale pattern ≤
        Int.log 2 ((significand pattern : ℚ) * 2 ^ scale pattern) := by
      rw [← Int.zpow_le_iff_le_log Nat.one_lt_two positive, Nat.cast_two, zpow_add₀ two_ne_zero,
        zpow_natCast]
      apply mul_le_mul_of_nonneg_right _ power.le
      exact_mod_cast significand_pos_of_normal subnormal
    have := below (significand_lt pattern)
    have := leastScale_le_scale pattern
    push_cast at *
    omega

/-- Every finite pattern is the nearest float of its exact magnitude. -/
theorem nearest_magnitude (finite : pattern < infinityPattern) :
    nearest (scaledNumerator (significand pattern) (scale pattern))
      (scaledDenominator (scale pattern)) = pattern := by
  have whole := scale_add_significand pattern
  rw [nearest]
  split
  · next none =>
      have zero : significand pattern = 0 :=
        (Nat.mul_eq_zero.1 none).resolve_right (Nat.two_pow_pos _).ne'
      have subnormal : exponentField pattern = 0 := by
        by_contra normal
        have := significand_pos_of_normal normal
        rw [zero] at this
        exact absurd this (Nat.not_le.2 (Nat.two_pow_pos _))
      rw [significand, if_pos subnormal] at zero
      exact zero.symm
  · next some =>
      have positive : 0 < significand pattern := by
        apply Nat.pos_of_ne_zero
        intro zero
        exact some (by rw [scaledNumerator, zero, Nat.zero_mul])
      have exact : quotientToEven
          (scaledNumerator (significand pattern) (scale pattern) *
            Nat.pow 2 (-scale pattern).toNat)
          (scaledDenominator (scale pattern) * Nat.pow 2 (scale pattern).toNat) =
            significand pattern := by
        rw [scaledNumerator, scaledDenominator, Nat.mul_assoc, Nat.mul_comm (Nat.pow 2 _)]
        exact quotientToEven_mul_self _ (Nat.mul_pos (Nat.two_pow_pos _) (Nat.two_pow_pos _))
      simp only [max_floorLog2_magnitude positive, exact]
      rw [Nat.pow_eq, whole]
      exact Nat.min_eq_left finite.le

theorem nearest_le_infinityPattern (numerator denominator : Nat) :
    nearest numerator denominator ≤ infinityPattern := by
  rw [nearest]
  split
  · exact Nat.zero_le _
  · exact Nat.min_le_right _ _

end Lox.Binary64
