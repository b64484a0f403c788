/-
# Number literals in the source form

A number literal keeps its float when its source form is scanned, however many digits it
has and however close it lies to the ends of the range, as long as the float is finite.
A literal that is too large for that stands for infinity, and the source form of infinity
is a word: it scans to an identifier.
-/

import Lox.Proofs.Number.Overflow
import Lox.Proofs.Rescanning
import Lox.Proofs.SourceForm.Scanning

namespace Lox

open Decimal (Spells IsDigits)

/-! ## Texts of one token -/

/-- A text that spells a token, and has no newline, scans to that token. -/
theorem scan_spelled (token : Token) (spelled : token.WellSpelled) (first : token.line = 1)
    (oneLine : '\n' ∉ token.lexeme.toList) :
    scan token.lexeme = [.token token, .token (.atEnd 1)] := by
  have single := spelled.segments_append token.kind.endsBefore_nil
  have noNewline : token.segment.newlines = 0 := List.count_eq_zero_of_not_mem oneLine
  rw [List.append_nil, segments] at single
  rw [scan, single, streamFrom, noNewline, streamFrom, Token.segment, Segment.item?,
    String.ofList_toList]
  obtain ⟨kind, lexeme, line⟩ := token
  cases first
  rfl

theorem newline_not_mem_digits {digits : List Char} (areDigits : IsDigits digits) :
    '\n' ∉ digits := by
  intro member
  exact absurd (areDigits.2 _ member) (by decide)

theorem newline_not_mem_of_spells {text whole fraction : List Char}
    (spells : Spells text whole fraction) : '\n' ∉ text := by
  cases spells with
  | whole areDigits => exact newline_not_mem_digits areDigits
  | fraction areDigits areMore =>
      rw [List.mem_append, List.mem_cons]
      rintro (member | point | member)
      · exact newline_not_mem_digits areDigits member
      · exact absurd point (by decide)
      · exact newline_not_mem_digits areMore member

/-- A text that spells a number scans to this number. -/
theorem scan_number {text whole fraction : List Char} (spells : Spells text whole fraction) :
    scan (String.ofList text) =
      [.token ⟨.number (Cut.numberValue whole fraction), String.ofList text, 1⟩,
        .token (.atEnd 1)] := by
  refine scan_spelled ⟨_, String.ofList text, 1⟩ ?_ rfl ?_
  · rw [Token.WellSpelled, String.toList_ofList]
    exact .number spells
  · rw [String.toList_ofList]
    exact newline_not_mem_of_spells spells

/-! ## The source form of what was scanned -/

open Binary64 (infinityPattern overflowBound toFloat)

/-- The source form of infinity is a name. -/
theorem scan_sourceForm_infinity :
    scan (Literal.number (toFloat false infinityPattern)).sourceForm =
      [.token ⟨.identifier, "inf", 1⟩, .token (.atEnd 1)] := by
  have name : (Literal.number (toFloat false infinityPattern)).sourceForm = "inf" := by decide
  rw [name]
  decide +kernel

/-- The float of a literal is finite exactly if its exact value is below the bound. -/
theorem nearest_ofDigits_lt_iff (whole fraction : List Char) :
    (Decimal.ofDigits whole fraction).nearest < infinityPattern ↔
      Decimal.valueOfDigits (whole ++ fraction) < overflowBound * 10 ^ fraction.length := by
  rw [Decimal.nearest, Binary64.nearest_lt_infinityPattern_iff (Decimal.denominator_pos _),
    Decimal.numerator, Decimal.denominator, Decimal.ofDigits]
  have noExponent : (-(fraction.length : Int)).toNat = 0 := by omega
  have places : (- -(fraction.length : Int)).toNat = fraction.length := by omega
  rw [noExponent, places, Nat.pow_eq, Nat.pow_eq, pow_zero, mul_one]

/-- All literals from the bound on stand for infinity. -/
theorem numberValue_of_overflow {whole fraction : List Char}
    (large : overflowBound * 10 ^ fraction.length ≤ Decimal.valueOfDigits (whole ++ fraction)) :
    Cut.numberValue whole fraction = toFloat false infinityPattern := by
  have notFinite := mt (nearest_ofDigits_lt_iff whole fraction).1 (Nat.not_lt.2 large)
  have low := Binary64.nearest_le_infinityPattern (Decimal.ofDigits whole fraction).numerator
    (Decimal.ofDigits whole fraction).denominator
  exact congrArg (toFloat false) (Nat.le_antisymm low (Nat.not_lt.1 notFinite))

/-- A float that was read back from digits has a source form that scans to it. -/
theorem scan_sourceForm_number {whole fraction : List Char}
    (finite : (Decimal.ofDigits whole fraction).nearest < infinityPattern) :
    scan (Literal.number (Cut.numberValue whole fraction)).sourceForm =
      [.token ⟨.number (Cut.numberValue whole fraction),
        (Literal.number (Cut.numberValue whole fraction)).sourceForm, 1⟩, .token (.atEnd 1)] := by
  obtain ⟨whole', fraction', spells, reads⟩ := NumberStyle.source.spells_magnitude finite
  have value : Cut.numberValue whole' fraction' = Cut.numberValue whole fraction :=
    congrArg (toFloat false) reads
  have text : (Literal.number (Cut.numberValue whole fraction)).sourceForm =
      String.ofList (NumberStyle.source.magnitude (Decimal.ofDigits whole fraction).nearest) :=
    NumberStyle.source.write_toFloat finite
  rw [text, scan_number spells, value]

/-- A text of one number literal, of any length, scans to one number, and the source form
of that number scans to the same number again exactly if the literal is below the least
magnitude that rounds to infinity.  All others stand for infinity, and infinity is
written as a name. -/
theorem numberLiteral_rescans_iff {ρ : Type} {text whole fraction : List Char}
    (spells : Spells text whole fraction) :
    ∃ value : Float, ∃ form : String, form = (Expr.literal (.number value) : Expr ρ).sourceForm ∧
      scan (String.ofList text) =
        [.token ⟨.number value, String.ofList text, 1⟩, .token (.atEnd 1)] ∧
      (scan form = [.token ⟨.number value, form, 1⟩, .token (.atEnd 1)] ↔
        Decimal.valueOfDigits (whole ++ fraction) < overflowBound * 10 ^ fraction.length) ∧
      (overflowBound * 10 ^ fraction.length ≤ Decimal.valueOfDigits (whole ++ fraction) →
        value = toFloat false infinityPattern ∧
          scan form = [.token ⟨.identifier, "inf", 1⟩, .token (.atEnd 1)]) := by
  refine ⟨Cut.numberValue whole fraction, _, rfl, scan_number spells, ?_⟩
  rcases Nat.lt_or_ge (Decimal.valueOfDigits (whole ++ fraction))
    (overflowBound * 10 ^ fraction.length) with small | large
  · have finite := (nearest_ofDigits_lt_iff whole fraction).2 small
    exact ⟨iff_of_true (scan_sourceForm_number finite) small,
      fun large => absurd large (Nat.not_le.2 small)⟩
  · have infinite := numberValue_of_overflow large
    have name := scan_sourceForm_infinity
    rw [← infinite] at name
    refine ⟨iff_of_false ?_ (Nat.not_lt.2 large), fun _ => ⟨infinite, name⟩⟩
    intro same
    have first := congrArg (fun items => items.head?) (name.symm.trans same)
    simp at first

/-- The greatest number whose digits survive. -/
theorem greatestLiteral_rescans :
    ∃ value : Float, ∃ form : String,
      form = (Expr.literal (.number value) : Expr Unit).sourceForm ∧
      scan (String.ofList (Decimal.digitsOf (overflowBound - 1))) =
        [.token ⟨.number value, String.ofList (Decimal.digitsOf (overflowBound - 1)), 1⟩,
          .token (.atEnd 1)] ∧
      scan form = [.token ⟨.number value, form, 1⟩, .token (.atEnd 1)] := by
  obtain ⟨value, form, same, scanned, again, -⟩ := @numberLiteral_rescans_iff Unit _ _ _
    (.whole (Decimal.isDigits_digitsOf (overflowBound - 1)))
  refine ⟨value, form, same, scanned, again.2 ?_⟩
  rw [List.append_nil, Decimal.valueOfDigits_digitsOf, List.length_nil, pow_zero, mul_one]
  exact Nat.sub_lt Binary64.overflowBound_pos Nat.one_pos

/-- The next number scans to a number, and its source form to a name. -/
theorem leastOverflowingLiteral_isName :
    ∃ value : Float,
      scan (String.ofList (Decimal.digitsOf overflowBound)) =
        [.token ⟨.number value, String.ofList (Decimal.digitsOf overflowBound), 1⟩,
          .token (.atEnd 1)] ∧
      scan (Expr.literal (.number value) : Expr Unit).sourceForm =
        [.token ⟨.identifier, "inf", 1⟩, .token (.atEnd 1)] := by
  refine ⟨_, scan_number (.whole (Decimal.isDigits_digitsOf overflowBound)), ?_⟩
  have infinite : Cut.numberValue (Decimal.digitsOf overflowBound) [] =
      toFloat false infinityPattern := by
    apply numberValue_of_overflow
    rw [List.append_nil, Decimal.valueOfDigits_digitsOf, List.length_nil, pow_zero, mul_one]
  rw [infinite]
  exact scan_sourceForm_infinity

end Lox
