/-
# Floats and their patterns

A float is made from a pattern by taking its bits apart into sign, exponent
and significand and putting them together again.  For the pattern of a finite
magnitude, or of infinity, nothing is lost on the way, so that the pattern can
be read off the float; only the bits of NaN are changed.
-/

import Mathlib
import Lox.Number.Binary64

namespace Lox.Binary64

open Float.Model (Format UnpackedFloat)
open Float.Model.UnpackedFloat

/-- The bits of a float. -/
abbrev Bits := BitVec Format.binary64.numBits

theorem toBitVec_ofBitVec (sign : BitVec 1) : (Sign.ofBitVec sign).toBitVec = sign := by
  revert sign
  decide

/-- The bits of a float are its sign, its exponent and its significand. -/
theorem packComponents_unpacked (bits : Bits) :
    packComponents Format.binary64 (Sign.ofBitVec (unpackSign bits)) (unpackExponent bits)
      (unpackMantissa bits) = bits := by
  apply BitVec.eq_of_getLsbD_eq
  intro place inside
  have inside : place < 64 := inside
  simp only [packComponents, toBitVec_ofBitVec, BitVec.getLsbD_append, unpackSign, unpackExponent,
    unpackMantissa]
  by_cases inMantissa : place < 52
  · simp [inMantissa]
  · by_cases inExponent : place < 63
    · have low : place - 52 < 11 := by omega
      have same : 52 + (place - 52) = place := by omega
      simp [inMantissa, low, same]
    · have last : place = 63 := by omega
      subst last
      simp

/-- The exponent that is stored is the one that was read. -/
theorem biased_exponent (field : Nat) (further : Int) (some : 0 ≤ field + further) :
    ((field : Int) - ((Format.binary64.exponentBias : Nat) +
        (Format.binary64.mantissaBitsWithoutImplicit : Nat)) + further +
      (Format.binary64.exponentBias : Nat) +
        (Format.binary64.mantissaBitsWithoutImplicit : Nat)).toNat = (field + further).toNat := by
  omega

/-- A significand with its leading bit. -/
theorem toNat_leading (mantissa : BitVec 52) :
    (1#1 ++ mantissa).toNat = 2 ^ 52 + mantissa.toNat := by
  have low := mantissa.isLt
  rw [BitVec.toNat_append, Nat.shiftLeft_eq, Nat.mul_comm, ← Nat.two_pow_add_eq_or_of_lt low]
  rfl

theorem log2_of_bounds {value : Nat} (bits : Nat) (low : 2 ^ bits ≤ value)
    (high : value < 2 ^ (bits + 1)) : value.log2 = bits := by
  have some : value ≠ 0 := by
    rintro rfl
    exact absurd low (Nat.not_le.2 (Nat.two_pow_pos bits))
  have := (Nat.le_log2 some).2 low
  have := (Nat.log2_lt some).2 high
  omega

/-- Without the exponent of infinity and NaN, bits are put together as they
were taken apart. -/
theorem pack_unpack_of_exponent {bits : Bits} (finite : unpackExponent bits ≠ -1#_) :
    UnpackedFloat.pack Format.binary64 (UnpackedFloat.unpack Format.binary64 bits) = bits := by
  have whole := packComponents_unpacked bits
  have lowField : (unpackExponent bits).toNat < 2 ^ 11 := (unpackExponent bits).isLt
  have low : (unpackMantissa bits).toNat < 2 ^ 52 := (unpackMantissa bits).isLt
  simp only [UnpackedFloat.unpack, if_neg finite]
  by_cases subnormal : unpackExponent bits = 0#_
  · rw [if_pos subnormal]
    by_cases zero : unpackMantissa bits = 0#_
    · rw [dif_pos zero]
      rw [subnormal, zero] at whole
      exact whole
    · have none : (unpackExponent bits).toNat = 0 := by
        rw [subnormal]
        rfl
      have exponent := biased_exponent (unpackExponent bits).toNat 1 (by omega)
      have some : (unpackMantissa bits).toNat ≠ 0 := fun same =>
        zero (BitVec.eq_of_toNat_eq same)
      have short : ¬ (unpackMantissa bits).toNat.log2 + 1 = Format.binary64.mantissaBits := by
        have := (Nat.log2_lt some).2 low
        show ¬ _ = 53
        omega
      rw [dif_neg zero]
      simp only [UnpackedFloat.pack, exponent]
      rw [none, if_neg (by decide), if_neg short, BitVec.ofNat_toNat, BitVec.setWidth_eq]
      rw [subnormal] at whole
      exact whole
  · have field : (unpackExponent bits).toNat ≠ 2 ^ 11 - 1 := fun same =>
      finite (BitVec.eq_of_toNat_eq same)
    have exponent := biased_exponent (unpackExponent bits).toNat 0 (by omega)
    rw [Int.add_zero, Int.add_zero, Int.toNat_natCast] at exponent
    have significand := toNat_leading (unpackMantissa bits)
    have long : (1#1 ++ unpackMantissa bits).toNat.log2 + 1 = Format.binary64.mantissaBits := by
      rw [significand, log2_of_bounds 52 (by omega) (by omega)]
      rfl
    have small : ¬ 2 ^ Format.binary64.exponentBits ≤ (unpackExponent bits).toNat + 1 := by
      show ¬ 2 ^ 11 ≤ _
      omega
    have stored : BitVec.ofNat Format.binary64.mantissaBitsWithoutImplicit
        (1#1 ++ unpackMantissa bits).toNat = unpackMantissa bits := by
      apply BitVec.eq_of_toNat_eq
      rw [BitVec.toNat_ofNat, significand]
      show (2 ^ 52 + _) % 2 ^ 52 = _
      rw [Nat.add_mod_left, Nat.mod_eq_of_lt low]
    rw [if_neg subnormal]
    simp only [UnpackedFloat.pack, exponent]
    rw [if_neg small, if_pos long, stored, BitVec.ofNat_toNat, BitVec.setWidth_eq]
    exact whole

theorem toNat_unpackExponent (bits : Bits) :
    (unpackExponent bits).toNat = bits.toNat / 2 ^ 52 % 2 ^ 11 := by
  simp [unpackExponent, Nat.shiftRight_eq_div_pow]

/-- Making a float from the pattern of a finite magnitude loses nothing. -/
theorem toBits_toFloat {magnitude : Nat} (finite : magnitude < infinityPattern) :
    (toFloat false magnitude).toBits.toNat = magnitude := by
  have bound : magnitude < 2047 * 2 ^ 52 := finite
  have word : magnitude % 2 ^ 64 = magnitude := Nat.mod_eq_of_lt (by omega)
  obtain ⟨bits, made⟩ : ∃ bits : Bits, bits = (UInt64.ofNat magnitude).toBitVec := ⟨_, rfl⟩
  have value : bits.toNat = magnitude := by
    rw [made, UInt64.toBitVec_ofNat']
    exact word
  have exponent : unpackExponent bits ≠ -1#_ := by
    intro same
    have field := toNat_unpackExponent bits
    rw [same, value] at field
    have field : 2047 = magnitude / 2 ^ 52 % 2 ^ 11 := field
    omega
  have same := pack_unpack_of_exponent exponent
  show (UnpackedFloat.pack Format.binary64 (UnpackedFloat.unpack Format.binary64
    (UInt64.ofNat magnitude).toBitVec)).toNat = magnitude
  rw [← made, same, value]

theorem pattern_toFloat {magnitude : Nat} (finite : magnitude < infinityPattern) :
    pattern (toFloat false magnitude) = magnitude := by
  have bound : magnitude < 2047 * 2 ^ 52 := finite
  rw [pattern, toBits_toFloat finite, Nat.pow_eq]
  exact Nat.mod_eq_of_lt (by omega)

theorem not_isNegative_toFloat {magnitude : Nat} (finite : magnitude < infinityPattern) :
    isNegative (toFloat false magnitude) = false := by
  have bound : magnitude < 2047 * 2 ^ 52 := finite
  rw [isNegative, toBits_toFloat finite, decide_eq_false_iff_not, Nat.pow_eq]
  omega

/-- The pattern of a finite float is not that of infinity. -/
theorem lt_infinityPattern_of_isFinite {magnitude : Nat} (low : magnitude ≤ infinityPattern)
    (finite : (toFloat false magnitude).isFinite = true) : magnitude < infinityPattern := by
  apply Nat.lt_of_le_of_ne low
  rintro rfl
  have infinite : (toFloat false infinityPattern).isFinite = false := by decide
  rw [infinite] at finite
  cases finite

end Lox.Binary64
