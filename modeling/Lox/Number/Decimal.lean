/-
# Decimals, and the shortest one that reads back to a float

A decimal is a natural number times a power of ten.  Reading one is rounding
its exact quotient to the nearest float, so a decimal *stands for* a float
when it reads back to that float's pattern.

Many decimals stand for the same float.  `shortest` takes the one with the
fewest digits: on the grid of one leading digit, of two, and so on, it tries
the two neighbours of the exact value, and the first grid with a neighbour
that reads back wins.  If both neighbours do, the nearer one is taken.  The
exact value of the float is itself a decimal, which is what the search falls
back on.
-/

import Lox.Number.Binary64

namespace Lox

/-- The number `digits * 10 ^ exponent`. -/
structure Decimal where
  digits : Nat
  exponent : Int
deriving DecidableEq

/-- Which of two equally near decimals is taken. -/
inductive Tie where
  /-- The one whose last digit is even. -/
  | toEven
  /-- The greater one. -/
  | up
deriving DecidableEq

namespace Decimal

/-- The numerator of a decimal as a quotient. -/
def numerator (decimal : Decimal) : Nat :=
  decimal.digits * Nat.pow 10 decimal.exponent.toNat

/-- The denominator of a decimal as a quotient. -/
def denominator (decimal : Decimal) : Nat :=
  Nat.pow 10 (-decimal.exponent).toNat

/-- The pattern of the float nearest to a decimal. -/
def nearest (decimal : Decimal) : Nat :=
  Binary64.nearest decimal.numerator decimal.denominator

/-- The value of a row of decimal digits. -/
def valueOfDigits (digits : List Char) : Nat :=
  digits.foldl (fun value digit => 10 * value + (digit.toNat - '0'.toNat)) 0

/-- The decimal spelled by the digits before and after a point. -/
def ofDigits (whole fraction : List Char) : Decimal :=
  ⟨valueOfDigits (whole ++ fraction), -fraction.length⟩

/-- Moves the trailing zeros of the digits into the exponent. -/
def trimmed (decimal : Decimal) : Decimal :=
  if decimal.digits ≠ 0 ∧ decimal.digits % 10 = 0 then
    trimmed ⟨decimal.digits / 10, decimal.exponent + 1⟩
  else decimal
termination_by decimal.digits
decreasing_by simp_all; omega

/-- The decimal that equals a finite magnitude. -/
def exact (pattern : Nat) : Decimal :=
  let scale := Binary64.scale pattern
  ⟨Binary64.significand pattern * Nat.pow 2 scale.toNat * Nat.pow 5 (-scale).toNat, min scale 0⟩

/-- The greatest integer `e` with `10 ^ e ≤ numerator / denominator`, for
positive arguments.  The binary logarithm times the decimal logarithm of two
is at most one off, which exact comparisons then mend. -/
def floorLog10 (numerator denominator : Nat) : Int :=
  let atLeast (e : Int) : Bool :=
    denominator * Nat.pow 10 e.toNat ≤ numerator * Nat.pow 10 (-e).toNat
  let estimate := Binary64.floorLog2 numerator denominator * 30103 / 100000
  if atLeast (estimate + 1) then estimate + 1
  else if atLeast estimate then estimate
  else estimate - 1

/-- Whether a decimal reads back to a pattern. -/
def readsBack (pattern : Nat) (decimal : Decimal) : Bool :=
  decimal.nearest = pattern

/-- The better of the two neighbours of a magnitude on the multiples of
`10 ^ grid`, among those that read back. -/
def neighbour? (tie : Tie) (pattern : Nat) (grid : Int) : Option Decimal :=
  let exact := exact pattern
  let numerator := exact.numerator * Nat.pow 10 (-grid).toNat
  let denominator := exact.denominator * Nat.pow 10 grid.toNat
  let below := numerator / denominator
  match readsBack pattern ⟨below, grid⟩, readsBack pattern ⟨below + 1, grid⟩ with
  | false, false => none
  | true, false => some ⟨below, grid⟩
  | false, true => some ⟨below + 1, grid⟩
  | true, true =>
    match compare (2 * (numerator % denominator)) denominator with
    | .lt => some ⟨below, grid⟩
    | .gt => some ⟨below + 1, grid⟩
    | .eq =>
      match tie with
      | .toEven => some ⟨below + below % 2, grid⟩
      | .up => some ⟨below + 1, grid⟩

/-- No float needs more digits than this to be told from its neighbours. -/
def mostDigits : Nat := 17

/-- The decimal with the fewest digits that reads back to a finite, positive
magnitude, without trailing zeros. -/
def shortest (tie : Tie) (pattern : Nat) : Decimal :=
  let exact := exact pattern
  let leading := floorLog10 exact.numerator exact.denominator
  let found := (List.range mostDigits).findSome? fun (further : Nat) =>
    neighbour? tie pattern (leading - further)
  (found.getD exact).trimmed

end Decimal

end Lox
