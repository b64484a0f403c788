/-
# Reading bytes as UTF-8

A character below 128 is one byte.  Any other starts with a byte that tells
how many follow and, to rule out overlong forms and surrogates, within which
bounds the next one lies; the bytes after that carry six bits each.

Bytes that are no text are refused with the place where the first wrong
character starts.  If the bytes end inside a character, it is incomplete;
otherwise it is wrong, and the fault tells how many of its bytes still made
sense.
-/

namespace Lox.Text

/-- Why bytes are no text. -/
inductive Utf8Fault where
  /-- A wrong character of so many bytes. -/
  | invalid (length index : Nat)
  /-- The bytes end inside a character. -/
  | incomplete (index : Nat)
deriving DecidableEq

/-- The wording of a fault. -/
def Utf8Fault.message : Utf8Fault → String
  | invalid length index =>
    "invalid utf-8 sequence of " ++ toString length ++ " bytes from index " ++ toString index
  | incomplete index => "incomplete utf-8 byte sequence from index " ++ toString index

/-- A character of which some bytes have been read. -/
structure PartialCharacter where
  /-- Where it starts. -/
  index : Nat
  /-- How many bytes of it have been read. -/
  length : Nat
  /-- How many bytes follow the next one. -/
  further : Nat
  /-- The bits that have been read. -/
  value : Nat
  /-- The bounds of the next byte. -/
  low : Nat
  high : Nat

/-- The character of several bytes that a byte starts, if it can start one. -/
def PartialCharacter.start? (index byte : Nat) : Option PartialCharacter :=
  if 0xC2 ≤ byte ∧ byte ≤ 0xDF then some ⟨index, 1, 0, byte - 0xC0, 0x80, 0xBF⟩
  else if byte = 0xE0 then some ⟨index, 1, 1, 0, 0xA0, 0xBF⟩
  else if byte = 0xED then some ⟨index, 1, 1, byte - 0xE0, 0x80, 0x9F⟩
  else if 0xE1 ≤ byte ∧ byte ≤ 0xEF then some ⟨index, 1, 1, byte - 0xE0, 0x80, 0xBF⟩
  else if byte = 0xF0 then some ⟨index, 1, 2, 0, 0x90, 0xBF⟩
  else if 0xF1 ≤ byte ∧ byte ≤ 0xF3 then some ⟨index, 1, 2, byte - 0xF0, 0x80, 0xBF⟩
  else if byte = 0xF4 then some ⟨index, 1, 2, byte - 0xF0, 0x80, 0x8F⟩
  else none

/-- Reads bytes, of which the first stands at an index, behind a partial
character and after characters in reverse order. -/
def decodeFrom (read : List Char) (index : Nat) :
    Option PartialCharacter → List UInt8 → Except Utf8Fault (List Char)
  | none, [] => .ok read.reverse
  | some character, [] => .error (.incomplete character.index)
  | none, byte :: rest =>
    let byte := byte.toNat
    if byte < 0x80 then decodeFrom (Char.ofNat byte :: read) (index + 1) none rest
    else
      match PartialCharacter.start? index byte with
      | some character => decodeFrom read (index + 1) (some character) rest
      | none => .error (.invalid 1 index)
  | some character, byte :: rest =>
    let byte := byte.toNat
    if character.low ≤ byte ∧ byte ≤ character.high then
      let value := 64 * character.value + (byte - 0x80)
      match character.further with
      | 0 => decodeFrom (Char.ofNat value :: read) (index + 1) none rest
      | further + 1 =>
        let character :=
          ⟨character.index, character.length + 1, further, value, 0x80, 0xBF⟩
        decodeFrom read (index + 1) (some character) rest
    else .error (.invalid character.length character.index)

/-- The text that bytes stand for. -/
def decodeUtf8 (bytes : List UInt8) : Except Utf8Fault String :=
  (decodeFrom [] 0 none bytes).map String.ofList

end Lox.Text
