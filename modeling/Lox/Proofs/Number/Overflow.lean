/-
# Where rounding overflows

The greatest finite magnitude is the last multiple of `2 ^ 971` below `2 ^ 1024`.  Half
a step above it lies the least quotient that rounds to infinity: there the tie goes to
the even significand, which is that of the power of two.
-/

import Lox.Proofs.Number.Nearest

namespace Lox.Binary64

variable {numerator denominator : Nat}

/-- Two to this power is half the step between the greatest finite magnitudes. -/
def halfStep : Nat := 970

/-- The least magnitude that rounds to infinity. -/
def overflowBound : Nat :=
  (Nat.pow 2 54 - 1) * Nat.pow 2 halfStep

theorem overflowBound_pos : 0 < overflowBound := by
  rw [overflowBound, Nat.pow_eq, Nat.pow_eq]
  positivity

/-- Rounding adds one to a quotient, or nothing. -/
theorem quotientToEven_eq (numerator denominator : Nat) :
    quotientToEven numerator denominator = numerator / denominator +
      if 2 * (numerator % denominator) < denominator then 0
      else if 2 * (numerator % denominator) = denominator then numerator / denominator % 2
      else 1 := by
  rw [quotientToEven]
  rcases Nat.lt_trichotomy (2 * (numerator % denominator)) denominator with less | tie | greater
  · rw [compare_lt_iff_lt.2 less, if_pos less]
    rfl
  · rw [compare_eq_iff_eq.2 tie, if_neg (by omega), if_pos tie]
  · rw [compare_gt_iff_gt.2 greater, if_neg (by omega), if_neg (by omega)]

theorem div_le_quotientToEven (numerator denominator : Nat) :
    numerator / denominator ≤ quotientToEven numerator denominator := by
  rw [quotientToEven_eq]
  exact Nat.le_add_right _ _

theorem quotientToEven_le (numerator denominator : Nat) :
    quotientToEven numerator denominator ≤ numerator / denominator + 1 := by
  rw [quotientToEven_eq]
  split_ifs <;> omega

/-- A quotient rounds to less than an even number if it lies more than a half below. -/
theorem quotientToEven_lt_iff (numerator : Nat) (positive : 0 < denominator) (half : Nat) :
    quotientToEven numerator denominator < 2 * half ↔
      2 * numerator + denominator < 4 * half * denominator := by
  have whole := Nat.div_add_mod numerator denominator
  have rest := Nat.mod_lt numerator positive
  have low := div_le_quotientToEven numerator denominator
  have high := quotientToEven_le numerator denominator
  have rounded := quotientToEven_eq numerator denominator
  generalize quotientToEven numerator denominator = result at *
  generalize numerator % denominator = remainder at *
  generalize numerator / denominator = quotient at *
  rcases Nat.lt_trichotomy (quotient + 1) (2 * half) with below | last | above
  · have steps : denominator * (quotient + 2) ≤ denominator * (2 * half) :=
      Nat.mul_le_mul_left _ below
    constructor
    · intro _
      nlinarith
    · intro _
      omega
  · have step : 2 * half * denominator = denominator * quotient + denominator := by
      rw [← last]
      ring
    have scaled : 4 * half * denominator = 2 * (2 * half * denominator) := by ring
    rw [scaled, step, ← whole]
    split_ifs at rounded <;> omega
  · have steps : denominator * (2 * half) ≤ denominator * quotient :=
      Nat.mul_le_mul_left _ (by omega)
    constructor
    · intro _
      omega
    · intro _
      nlinarith

/-- Scaled by a power of two, a quotient is compared with a further power by its
logarithm. -/
theorem scaled_lt_iff (some : 0 < numerator) (positive : 0 < denominator) (scale : Int)
    (bits : Nat) :
    numerator * 2 ^ (-scale).toNat < 2 ^ bits * (denominator * 2 ^ scale.toNat) ↔
      Int.log 2 ((numerator : ℚ) / denominator) < scale + bits := by
  have quotient : (0 : ℚ) < (numerator : ℚ) / denominator := by positivity
  rw [← Int.lt_zpow_iff_log_lt Nat.one_lt_two quotient, Nat.cast_two, zpow_add₀ two_ne_zero,
    zpow_natCast, two_zpow, div_mul_eq_mul_div, div_lt_div_iff₀ (by positivity) (by positivity)]
  have sides : (2 : ℚ) ^ scale.toNat * 2 ^ bits * denominator =
      2 ^ bits * (denominator * 2 ^ scale.toNat) := by ring
  rw [sides]
  norm_cast

/-- Below `2 ^ 1023` the significand is written under a lesser exponent, and even one that
rounds up to the next power of two stays below infinity. -/
theorem nearest_lt_of_log_le (some : 0 < numerator) (positive : 0 < denominator)
    (low : Int.log 2 ((numerator : ℚ) / denominator) ≤ 1022) :
    nearest numerator denominator < infinityPattern := by
  have compared := scaled_lt_iff some positive
  rw [nearest, if_neg some.ne', floorLog2_eq_log some positive]
  generalize Int.log 2 ((numerator : ℚ) / denominator) = exponent at *
  simp only [storedBits, leastScale, infinityPattern, Nat.pow_eq]
  obtain ⟨scale, isScale⟩ : ∃ scale, scale = max (exponent - (52 : Nat)) (-1074) := ⟨_, rfl⟩
  rw [← isScale]
  have less := (compared scale 53).2 (by omega)
  have quotient : numerator * 2 ^ (-scale).toNat / (denominator * 2 ^ scale.toNat) < 2 ^ 53 :=
    Nat.div_lt_of_lt_mul (by rwa [Nat.mul_comm _ (2 ^ 53)])
  have rounded := quotientToEven_le (numerator * 2 ^ (-scale).toNat) (denominator * 2 ^ scale.toNat)
  omega

/-- From `2 ^ 1023` on there are only the scale of the greatest finite magnitude and those
above it, under which every significand with its leading bit stands for infinity. -/
theorem nearest_lt_iff_of_le_log (some : 0 < numerator) (positive : 0 < denominator)
    (high : 1023 ≤ Int.log 2 ((numerator : ℚ) / denominator)) :
    nearest numerator denominator < infinityPattern ↔
      Int.log 2 ((numerator : ℚ) / denominator) = 1023 ∧
        numerator < overflowBound * denominator := by
  have compared := scaled_lt_iff some positive
  rw [nearest, if_neg some.ne', floorLog2_eq_log some positive]
  generalize Int.log 2 ((numerator : ℚ) / denominator) = exponent at *
  obtain ⟨above, rfl⟩ : ∃ above : Nat, exponent = 1023 + above :=
    ⟨(exponent - 1023).toNat, by omega⟩
  have scale : max ((1023 : Int) + above - (52 : Nat)) (-1074) = (971 + above : Nat) := by omega
  have none : (-((971 + above : Nat) : Int)).toNat = 0 := by omega
  have steps : (((971 + above : Nat) : Int) - -1074).toNat = 2045 + above := by omega
  simp only [storedBits, leastScale, infinityPattern, overflowBound, Nat.pow_eq, scale, none, steps,
    Int.toNat_natCast, pow_zero, mul_one]
  have power : 0 < (2 : Nat) ^ (971 + above) := Nat.two_pow_pos _
  cases above with
  | zero =>
      have step : (2 : Nat) ^ (halfStep + 1) = 2 * 2 ^ halfStep := pow_succ' 2 halfStep
      have place : 971 + 0 = halfStep + 1 := rfl
      rw [place, step] at power ⊢
      generalize (2 : Nat) ^ halfStep = half at *
      have rounded := quotientToEven_lt_iff numerator (Nat.mul_pos positive power) (2 ^ 52)
      have doubled : denominator * (2 * half) = 2 * (half * denominator) := by ring
      rw [doubled] at rounded ⊢
      rw [Nat.mul_assoc]
      omega
  | succ above =>
      have reached := mt (compared (971 + (above + 1) : Nat) 52).1 (by omega)
      rw [none, pow_zero, mul_one, Int.toNat_natCast] at reached
      have quotient : 2 ^ 52 ≤ numerator / (denominator * 2 ^ (971 + (above + 1))) :=
        (Nat.le_div_iff_mul_le (Nat.mul_pos positive power)).2 (Nat.not_lt.1 reached)
      have rounded := div_le_quotientToEven numerator (denominator * 2 ^ (971 + (above + 1)))
      generalize quotientToEven numerator (denominator * 2 ^ (971 + (above + 1))) = significand at *
      clear power reached
      omega

/-- A quotient rounds to a finite float exactly if it is below the bound. -/
theorem nearest_lt_infinityPattern_iff (positive : 0 < denominator) :
    nearest numerator denominator < infinityPattern ↔ numerator < overflowBound * denominator := by
  rcases Nat.eq_zero_or_pos numerator with rfl | some
  · have zero : nearest 0 denominator < infinityPattern := by
      rw [nearest, if_pos rfl]
      decide
    exact iff_of_true zero (Nat.mul_pos overflowBound_pos positive)
  have compared := scaled_lt_iff some positive halfStep
  have none : (-(halfStep : Int)).toNat = 0 := rfl
  rw [none, Int.toNat_natCast, pow_zero, mul_one] at compared
  have unit : overflowBound * denominator = (2 ^ 54 - 1) * (denominator * 2 ^ halfStep) := by
    rw [overflowBound, Nat.pow_eq, Nat.pow_eq, Nat.mul_assoc, Nat.mul_comm denominator]
  have place : (halfStep : Int) = 970 := rfl
  rw [unit]
  rcases Int.lt_or_le (Int.log 2 ((numerator : ℚ) / denominator)) 1023 with low | high
  · have less := (compared 53).2 (by omega)
    exact iff_of_true (nearest_lt_of_log_le some positive (by omega))
      (less.trans_le (Nat.mul_le_mul_right _ (by decide)))
  · rw [nearest_lt_iff_of_le_log some positive high, unit]
    refine and_iff_right_of_imp fun less => ?_
    have bounded := (compared 54).1 (less.trans_le (Nat.mul_le_mul_right _ (by decide)))
    omega

end Lox.Binary64
