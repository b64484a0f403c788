/-
# How numbers are written

One decimal is laid out in two ways: positionally, as digits with at most one
point, or with an exponent.  On top of these the language has five written
forms of a float:

* the form in which a program prints a value,
* the form in a token listing,
* the form in the prefix notation of a tree,
* the form in source text,
* the form in JSON text.

The first four differ only in a few decisions, kept in one record
(`NumberStyle`).  The last has an exponent for very large and very small
values and no spelling at all for infinities and NaN.
-/

import Lox.Number.Decimal

namespace Lox

namespace Decimal

/-- The digits of a natural number, the most significant first. -/
def digitsOf (value : Nat) : List Char :=
  Nat.toDigits 10 value

/-- The digits with the point `places` from the right, and at least one digit
in front of it. -/
def withPoint (places : Nat) (digits : List Char) : List Char :=
  let padded := List.replicate (places + 1 - digits.length) '0' ++ digits
  let whole := padded.length - places
  padded.take whole ++ '.' :: padded.drop whole

/-- A decimal without an exponent.  Whole numbers have no point. -/
def positional (decimal : Decimal) : List Char :=
  if 0 ≤ decimal.exponent then
    digitsOf (decimal.digits * Nat.pow 10 decimal.exponent.toNat)
  else withPoint (-decimal.exponent).toNat (digitsOf decimal.digits)

/-- A whole number that always has its sign. -/
def signedDigits (value : Int) : List Char :=
  (if value < 0 then '-' else '+') :: digitsOf value.natAbs

/-- The power of ten of the leading digit. -/
def leadingExponent (decimal : Decimal) : Int :=
  decimal.exponent + ((digitsOf decimal.digits).length - 1 : Nat)

/-- A decimal as one leading digit, the others behind a point, and the power
of ten of the leading digit.  A single digit has no point. -/
def withExponent (decimal : Decimal) : List Char :=
  let mantissa :=
    match digitsOf decimal.digits with
    | first :: second :: more => first :: '.' :: second :: more
    | digits => digits
  mantissa ++ 'e' :: signedDigits decimal.leadingExponent

end Decimal

/-- How whole numbers are written. -/
inductive WholeStyle where
  /-- The shortest digits, filled up with zeros. -/
  | shortest
  /-- All digits of the exact value, a point and a zero. -/
  | exactWithPoint
deriving DecidableEq

/-- The decisions in which the written forms without exponent differ. -/
structure NumberStyle where
  /-- How infinity is spelled. -/
  infinity : String
  /-- How whole numbers are written. -/
  whole : WholeStyle
  /-- Whether negative zero has its sign. -/
  signedZero : Bool

namespace NumberStyle

/-- What a program prints: infinity has its full name. -/
def display : NumberStyle := ⟨"Infinity", .shortest, true⟩

/-- Source text, to be read again. -/
def source : NumberStyle := ⟨"inf", .shortest, true⟩

/-- The prefix notation of trees: whole numbers show that they are numbers by
their point. -/
def prefixForm : NumberStyle := ⟨"inf", .exactWithPoint, true⟩

/-- Token listings, where negative zero is a plain zero. -/
def listing : NumberStyle := ⟨"inf", .exactWithPoint, false⟩

/-- A finite magnitude without its sign. -/
def magnitude (style : NumberStyle) (pattern : Nat) : List Char :=
  let exact := Decimal.exact pattern
  if style.whole = .exactWithPoint && Binary64.isWhole pattern then
    Decimal.digitsOf (exact.numerator / exact.denominator) ++ ['.', '0']
  else if pattern = 0 then ['0']
  else (Decimal.shortest .up pattern).positional

/-- The text of a float. -/
def write (style : NumberStyle) (value : Float) : String :=
  let pattern := Binary64.pattern value
  let sign := if Binary64.isNegative value && (style.signedZero || pattern ≠ 0) then "-" else ""
  if pattern > Binary64.infinityPattern then "NaN"
  else if pattern = Binary64.infinityPattern then sign ++ style.infinity
  else sign ++ String.ofList (style.magnitude pattern)

end NumberStyle

/-- The JSON text of a float: the shortest digits, positionally if the leading
digit stands for a power of ten from `-5` to `15`, and then whole numbers with
a point and a zero.  JSON has no infinities and no NaN. -/
def jsonNumber (value : Float) : String :=
  let pattern := Binary64.pattern value
  if Binary64.infinityPattern ≤ pattern then "null"
  else
    let sign := if Binary64.isNegative value then "-" else ""
    if pattern = 0 then sign ++ "0.0"
    else
      let decimal := Decimal.shortest .toEven pattern
      let leading := decimal.leadingExponent
      let digits :=
        if -5 ≤ leading && leading < 16 then
          if 0 ≤ decimal.exponent then decimal.positional ++ ['.', '0'] else decimal.positional
        else decimal.withExponent
      sign ++ String.ofList digits

end Lox
