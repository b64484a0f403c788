/-
# Decimals that read back

The shortest decimal of a finite pattern is found by a search, and the search
takes nothing that does not read back to the pattern; where it finds nothing
the exact value of the float is left, which reads back because rounding it is
exact.  Written positionally, a decimal is digits with at most one point, and
the decimal that is spelled by these digits has the same value.
-/

import Lox.Number.Style
import Lox.Proofs.Number.Nearest

namespace Lox

namespace Decimal

theorem denominator_pos (decimal : Decimal) : 0 < decimal.denominator :=
  Nat.pow_pos (Nat.succ_pos 9)

/-- Decimals of one value have one nearest float. -/
theorem nearest_eq_of_value {first second : Decimal}
    (same : first.numerator * second.denominator = second.numerator * first.denominator) :
    first.nearest = second.nearest :=
  Binary64.nearest_congr first.denominator_pos second.denominator_pos same

/-- The exact decimal is the exact magnitude, with both sides of the quotient multiplied by
a power of five. -/
theorem exact_eq (pattern : Nat) : ∃ factor,
    (exact pattern).numerator =
      Binary64.scaledNumerator (Binary64.significand pattern) (Binary64.scale pattern) * factor ∧
    (exact pattern).denominator = Binary64.scaledDenominator (Binary64.scale pattern) * factor := by
  have noExponent : (min (Binary64.scale pattern) 0).toNat = 0 := by omega
  have places : (-min (Binary64.scale pattern) 0).toNat = (-Binary64.scale pattern).toNat := by
    omega
  refine ⟨5 ^ (-Binary64.scale pattern).toNat, ?_, ?_⟩
  · simp only [exact, numerator, Binary64.scaledNumerator, Nat.pow_eq, noExponent, pow_zero,
      mul_one]
  · simp only [exact, denominator, Binary64.scaledDenominator, Nat.pow_eq, places]
    rw [show 10 = 2 * 5 from rfl, Nat.mul_pow 2 5 (-Binary64.scale pattern).toNat]

/-- The exact decimal of a finite pattern reads back to it. -/
theorem nearest_exact {pattern : Nat} (finite : pattern < Binary64.infinityPattern) :
    (exact pattern).nearest = pattern := by
  obtain ⟨factor, above, below⟩ := exact_eq pattern
  have positive : 0 < Binary64.scaledDenominator (Binary64.scale pattern) := Nat.two_pow_pos _
  refine Eq.trans ?_ (Binary64.nearest_magnitude finite)
  apply Binary64.nearest_congr (denominator_pos _) positive
  rw [above, below]
  ring

/-- The quotient of the exact decimal of a whole number leaves no rest. -/
theorem denominator_dvd_of_isWhole {pattern : Nat} (whole : Binary64.isWhole pattern = true) :
    (exact pattern).denominator ∣ (exact pattern).numerator := by
  obtain ⟨factor, above, below⟩ := exact_eq pattern
  rw [Binary64.isWhole, decide_eq_true_eq] at whole
  rw [above, below]
  exact Nat.mul_dvd_mul_right (Nat.dvd_of_mod_eq_zero whole) factor

/-- Trailing zeros may stand in the digits or in the exponent. -/
theorem nearest_trimmed (decimal : Decimal) : decimal.trimmed.nearest = decimal.nearest := by
  fun_induction trimmed decimal with
  | case1 decimal zeros ih =>
      rw [ih]
      apply nearest_eq_of_value
      obtain ⟨_, last⟩ := zeros
      have tens : decimal.digits = 10 * (decimal.digits / 10) := by omega
      generalize decimal.digits / 10 = less at tens
      simp only [numerator, denominator, Nat.pow_eq, tens]
      rcases lt_or_ge decimal.exponent 0 with negative | nonnegative
      · have none : decimal.exponent.toNat = 0 := by omega
        have none' : (decimal.exponent + 1).toNat = 0 := by omega
        have places : (-decimal.exponent).toNat = (-(decimal.exponent + 1)).toNat + 1 := by omega
        rw [none, none', places, pow_succ]
        ring
      · have none : (-decimal.exponent).toNat = 0 := by omega
        have none' : (-(decimal.exponent + 1)).toNat = 0 := by omega
        have places : (decimal.exponent + 1).toNat = decimal.exponent.toNat + 1 := by omega
        rw [none, none', places, pow_succ]
        ring
  | case2 => rfl

/-- A neighbour that is taken reads back. -/
theorem nearest_neighbour {tie : Tie} {pattern : Nat} {grid : Int} {found : Decimal}
    (taken : neighbour? tie pattern grid = some found) : found.nearest = pattern := by
  have reads {digits : Nat} (back : readsBack pattern ⟨digits, grid⟩ = true) :
      nearest ⟨digits, grid⟩ = pattern := by
    simpa [readsBack] using back
  simp only [neighbour?] at taken
  generalize (exact pattern).numerator * Nat.pow 10 (-grid).toNat = numerator at taken
  generalize (exact pattern).denominator * Nat.pow 10 grid.toNat = denominator at taken
  generalize compare (2 * (numerator % denominator)) denominator = order at taken
  generalize numerator / denominator = below at taken
  cases lower : readsBack pattern ⟨below, grid⟩ with
  | false =>
      cases upper : readsBack pattern ⟨below + 1, grid⟩ with
      | false => simp [lower, upper] at taken
      | true =>
          simp only [lower, upper, Option.some.injEq] at taken
          exact taken ▸ reads upper
  | true =>
      cases upper : readsBack pattern ⟨below + 1, grid⟩ with
      | false =>
          simp only [lower, upper, Option.some.injEq] at taken
          exact taken ▸ reads lower
      | true =>
          have even : readsBack pattern ⟨below + below % 2, grid⟩ = true := by
            rcases Nat.mod_two_eq_zero_or_one below with same | other
            · rw [same]
              exact lower
            · rw [other]
              exact upper
          cases order <;> cases tie <;> simp only [lower, upper, Option.some.injEq] at taken <;>
            exact taken ▸ reads (by assumption)

/-- The shortest decimal of a finite pattern reads back to it. -/
theorem nearest_shortest {pattern : Nat} (tie : Tie) (finite : pattern < Binary64.infinityPattern) :
    (shortest tie pattern).nearest = pattern := by
  rw [shortest, nearest_trimmed]
  generalize search : (List.range mostDigits).findSome? _ = result
  cases result with
  | none => exact nearest_exact finite
  | some found =>
      obtain ⟨further, _, taken⟩ := List.exists_of_findSome?_eq_some search
      exact nearest_neighbour taken

/-! ## Written digits -/

/-- A text of one digit at least. -/
def IsDigits (text : List Char) : Prop :=
  text ≠ [] ∧ ∀ character ∈ text, character.isDigit = true

/-- A text is digits, and more of them behind a point if there is a fraction. -/
inductive Spells : List Char → List Char → List Char → Prop where
  | whole {digits : List Char} (areDigits : IsDigits digits) : Spells digits digits []
  | fraction {digits more : List Char} (areDigits : IsDigits digits) (areMore : IsDigits more) :
      Spells (digits ++ '.' :: more) digits more

theorem valueOfDigits_eq (digits : List Char) :
    valueOfDigits digits = Nat.ofDigitChars 10 digits 0 :=
  rfl

theorem valueOfDigits_digitsOf (value : Nat) : valueOfDigits (digitsOf value) = value := by
  rw [valueOfDigits_eq, digitsOf]
  exact Nat.ofDigitChars_toDigits (by decide) (by decide)

theorem isDigits_digitsOf (value : Nat) : IsDigits (digitsOf value) :=
  ⟨Nat.toDigits_ne_nil, fun _ member => Nat.isDigit_of_mem_toDigits (by decide) (by decide) member⟩

/-- Zeros in front do not change the value of digits. -/
theorem valueOfDigits_replicate (count : Nat) (digits : List Char) :
    valueOfDigits (List.replicate count '0' ++ digits) = valueOfDigits digits := by
  rw [valueOfDigits_eq, Nat.ofDigitChars_append, Nat.ofDigitChars_replicate_zero, Nat.mul_zero,
    valueOfDigits_eq]

/-- Digits with a point are spelled so that the point is where it was put. -/
theorem spells_withPoint {places : Nat} (some : 0 < places) (value : Nat) :
    ∃ whole fraction, Spells (withPoint places (digitsOf value)) whole fraction ∧
      ofDigits whole fraction = ⟨value, -places⟩ := by
  obtain ⟨_, areDigits⟩ := isDigits_digitsOf value
  generalize padding : List.replicate (places + 1 - (digitsOf value).length) '0' ++ digitsOf value =
    padded
  have long : places + 1 ≤ padded.length := by
    rw [← padding, List.length_append, List.length_replicate]
    omega
  have all : ∀ character ∈ padded, character.isDigit = true := by
    intro character member
    rw [← padding] at member
    rcases List.mem_append.1 member with zero | digit
    · rw [(List.mem_replicate.1 zero).2]
      rfl
    · exact areDigits character digit
  have length : (padded.drop (padded.length - places)).length = places := by
    rw [List.length_drop]
    omega
  refine ⟨padded.take (padded.length - places), padded.drop (padded.length - places), ?_, ?_⟩
  · rw [withPoint, padding]
    refine .fraction ⟨?_, fun character member => all character (List.mem_of_mem_take member)⟩
      ⟨?_, fun character member => all character (List.mem_of_mem_drop member)⟩
    · intro empty
      have := congrArg List.length empty
      rw [List.length_take, List.length_nil] at this
      omega
    · intro empty
      rw [empty, List.length_nil] at length
      omega
  · rw [ofDigits, List.take_append_drop, length, ← padding, valueOfDigits_replicate,
      valueOfDigits_digitsOf]

/-- A decimal in positional form spells a decimal of the same value. -/
theorem spells_positional (decimal : Decimal) :
    ∃ whole fraction, Spells decimal.positional whole fraction ∧
      (ofDigits whole fraction).nearest = decimal.nearest := by
  by_cases nonnegative : 0 ≤ decimal.exponent
  · refine ⟨digitsOf (decimal.digits * Nat.pow 10 decimal.exponent.toNat), [], ?_, ?_⟩
    · rw [positional, if_pos nonnegative]
      exact .whole (isDigits_digitsOf _)
    · apply nearest_eq_of_value
      have none : (-decimal.exponent).toNat = 0 := by omega
      simp [ofDigits, numerator, denominator, valueOfDigits_digitsOf, none]
  · have some : 0 < (-decimal.exponent).toNat := by omega
    obtain ⟨whole, fraction, spelled, same⟩ := spells_withPoint some decimal.digits
    refine ⟨whole, fraction, ?_, ?_⟩
    · rw [positional, if_neg nonnegative]
      exact spelled
    · have exponent : -((-decimal.exponent).toNat : Int) = decimal.exponent := by omega
      rw [same, exponent]

/-- All digits of a whole number with a point and a zero spell a decimal of the same
value. -/
theorem spells_whole {pattern : Nat} (whole : Binary64.isWhole pattern = true) :
    ∃ digits fraction, Spells (digitsOf ((exact pattern).numerator / (exact pattern).denominator) ++
        ['.', '0']) digits fraction ∧
      (ofDigits digits fraction).nearest = (exact pattern).nearest := by
  refine ⟨digitsOf _, ['0'], .fraction (isDigits_digitsOf _) ⟨by simp, by simp⟩, ?_⟩
  apply nearest_eq_of_value
  have value (number : Nat) : ofDigits (digitsOf number) ['0'] = ⟨number * 10, -1⟩ := by
    rw [ofDigits, valueOfDigits_eq, Nat.ofDigitChars_append, ← valueOfDigits_eq,
      valueOfDigits_digitsOf]
    simp [Nat.ofDigitChars, Nat.mul_comm]
  have above (number : Nat) : numerator ⟨number * 10, -1⟩ = number * 10 := Nat.mul_one _
  have below (number : Nat) : denominator ⟨number * 10, -1⟩ = 10 := rfl
  rw [value, above, below]
  calc (exact pattern).numerator / (exact pattern).denominator * 10 * (exact pattern).denominator
      = (exact pattern).numerator / (exact pattern).denominator * (exact pattern).denominator * 10 :=
        Nat.mul_right_comm ..
    _ = (exact pattern).numerator * 10 := by
        rw [Nat.div_mul_cancel (denominator_dvd_of_isWhole whole)]

end Decimal

namespace NumberStyle

/-- The text of a finite pattern, in any style, spells a decimal that reads back to it. -/
theorem spells_magnitude (style : NumberStyle) {pattern : Nat}
    (finite : pattern < Binary64.infinityPattern) :
    ∃ whole fraction, Decimal.Spells (style.magnitude pattern) whole fraction ∧
      (Decimal.ofDigits whole fraction).nearest = pattern := by
  rw [magnitude]
  split
  · next both =>
      rw [Bool.and_eq_true] at both
      obtain ⟨whole, fraction, spelled, same⟩ := Decimal.spells_whole both.2
      exact ⟨whole, fraction, spelled, same.trans (Decimal.nearest_exact finite)⟩
  split
  · next none =>
      subst none
      exact ⟨['0'], [], .whole ⟨by simp, by simp⟩, by decide⟩
  · obtain ⟨whole, fraction, spelled, same⟩ := (Decimal.shortest .up pattern).spells_positional
    exact ⟨whole, fraction, spelled, same.trans (Decimal.nearest_shortest .up finite)⟩

end NumberStyle

end Lox
