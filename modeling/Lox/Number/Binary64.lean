/-
# Binary64 values as exact numbers

The magnitude of a finite 64-bit float is a natural number, its significand,
times a power of two.  This module reads significand and scale out of the bits
below the sign, and goes the other way: from an exact quotient of natural
numbers to the pattern of the nearest float, a tie going to the even
significand and a quotient that is too large to infinity.

Everything is exact arithmetic on natural numbers.  The sign bit is kept
apart; patterns here are those of magnitudes, below `2 ^ 63`.
-/

namespace Lox.Binary64

/-- The number of significand bits that a pattern stores. -/
def storedBits : Nat := 52

/-- The scale of the smallest magnitudes: each is a multiple of two to this
power. -/
def leastScale : Int := -1074

/-- The pattern of positive infinity, the first that stands for no finite
magnitude. -/
def infinityPattern : Nat := 2047 * Nat.pow 2 storedBits

/-- The exponent field of a pattern. -/
def exponentField (pattern : Nat) : Nat := pattern / Nat.pow 2 storedBits

/-- The significand of a finite magnitude, with the leading bit that normal
patterns leave out. -/
def significand (pattern : Nat) : Nat :=
  if exponentField pattern = 0 then pattern
  else Nat.pow 2 storedBits + pattern % Nat.pow 2 storedBits

/-- The power of two that the significand of a finite magnitude is multiplied
with. -/
def scale (pattern : Nat) : Int :=
  leastScale + (exponentField pattern - 1 : Nat)

/-- The numerator of `significand * 2 ^ scale`. -/
def scaledNumerator (significand : Nat) (scale : Int) : Nat :=
  significand * Nat.pow 2 scale.toNat

/-- The denominator of `significand * 2 ^ scale`. -/
def scaledDenominator (scale : Int) : Nat :=
  Nat.pow 2 (-scale).toNat

/-- The integer nearest to a quotient, the even one of two equally near. -/
def quotientToEven (numerator denominator : Nat) : Nat :=
  let quotient := numerator / denominator
  match compare (2 * (numerator % denominator)) denominator with
  | .lt => quotient
  | .eq => quotient + quotient % 2
  | .gt => quotient + 1

/-- The greatest integer `e` with `2 ^ e ≤ numerator / denominator`, for
positive arguments. -/
def floorLog2 (numerator denominator : Nat) : Int :=
  let estimate : Int := (numerator.log2 : Int) - denominator.log2
  if denominator * Nat.pow 2 estimate.toNat ≤ numerator * Nat.pow 2 (-estimate).toNat then estimate
  else estimate - 1

/-- The pattern of the float nearest to a quotient with positive denominator.
The significand is rounded at the scale of the result; writing it just above
the exponent field lets a significand that rounds up to the next power of two
carry into that field. -/
def nearest (numerator denominator : Nat) : Nat :=
  if numerator = 0 then 0
  else
    let scale := max (floorLog2 numerator denominator - storedBits) leastScale
    let rounded :=
      quotientToEven (numerator * Nat.pow 2 (-scale).toNat) (denominator * Nat.pow 2 scale.toNat)
    min ((scale - leastScale).toNat * Nat.pow 2 storedBits + rounded) infinityPattern

/-- The float with a given magnitude pattern and sign. -/
def toFloat (negative : Bool) (pattern : Nat) : Float :=
  Float.ofBits (UInt64.ofNat (if negative then Nat.pow 2 63 + pattern else pattern))

/-- Whether the sign bit of a float is set; it is for negative zero. -/
def isNegative (value : Float) : Bool :=
  Nat.pow 2 63 ≤ value.toBits.toNat

/-- The bits of a float below its sign. -/
def pattern (value : Float) : Nat :=
  value.toBits.toNat % Nat.pow 2 63

/-- Whether a finite magnitude is a whole number. -/
def isWhole (pattern : Nat) : Bool :=
  scaledNumerator (significand pattern) (scale pattern) % scaledDenominator (scale pattern) = 0

end Lox.Binary64
