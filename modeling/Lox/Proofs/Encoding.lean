/-
# Texts as bytes

Reading bytes is the inverse of writing a text as UTF-8: whatever text was written, it
is what its bytes stand for.  A character of several bytes is made of bytes from 128 on
only, so that a newline or a carriage return among the bytes is one of the text.
-/

import Lox.Text.Utf8
import Mathlib.Data.List.Basic
import Mathlib.Tactic.SplitIfs

namespace Lox.Text

open String (utf8EncodeChar)

/-- The UTF-8 bytes of a row of characters. -/
def bytesOf (text : List Char) : List UInt8 :=
  text.flatMap utf8EncodeChar

theorem bytesOf_append (first second : List Char) :
    bytesOf (first ++ second) = bytesOf first ++ bytesOf second :=
  List.flatMap_append

theorem bytesOf_singleton (character : Char) : bytesOf [character] = utf8EncodeChar character :=
  List.append_nil _

theorem bytesOf_cons (character : Char) (text : List Char) :
    bytesOf (character :: text) = utf8EncodeChar character ++ bytesOf text :=
  List.flatMap_cons

/-- The bytes of a string are those of its characters. -/
theorem toUTF8_eq (text : String) : text.toUTF8.data.toList = bytesOf text.toList := by
  have whole : text.toUTF8 = (bytesOf text.toList).toByteArray := String.utf8Encode_toList.symm
  rw [whole, List.toList_data_toByteArray]

/-! ## Partial characters -/

namespace PartialCharacter

variable {index lead : Nat}

theorem start?_two (low : 0xC2 ≤ lead) (high : lead ≤ 0xDF) :
    start? index lead = some ⟨index, 1, 0, lead - 0xC0, 0x80, 0xBF⟩ :=
  if_pos ⟨low, high⟩

/-- The first of three bytes rules out overlong forms and surrogates. -/
theorem start?_three (low : 0xE0 ≤ lead) (high : lead ≤ 0xEF) :
    start? index lead = some ⟨index, 1, 1, lead - 0xE0, if lead = 0xE0 then 0xA0 else 0x80,
      if lead = 0xED then 0x9F else 0xBF⟩ := by
  unfold start?
  split_ifs <;> first | omega | simp_all

/-- The first of four bytes rules out overlong forms and numbers of no character. -/
theorem start?_four (low : 0xF0 ≤ lead) (high : lead ≤ 0xF4) :
    start? index lead = some ⟨index, 1, 2, lead - 0xF0, if lead = 0xF0 then 0x90 else 0x80,
      if lead = 0xF4 then 0x8F else 0xBF⟩ := by
  unfold start?
  split_ifs <;> first | omega | simp_all

end PartialCharacter

/-! ## Reading characters -/

variable {read : List Char} {index : Nat} {rest : List UInt8}

theorem decodeFrom_single {byte : UInt8} (low : byte.toNat < 0x80) :
    decodeFrom read index none (byte :: rest) =
      decodeFrom (Char.ofNat byte.toNat :: read) (index + 1) none rest := by
  rw [decodeFrom, if_pos low]

theorem decodeFrom_first {byte : UInt8} {character : PartialCharacter} (high : 0x80 ≤ byte.toNat)
    (starts : PartialCharacter.start? index byte.toNat = some character) :
    decodeFrom read index none (byte :: rest) =
      decodeFrom read (index + 1) (some character) rest := by
  rw [decodeFrom, if_neg (Nat.not_lt.2 high), starts]

theorem decodeFrom_middle {byte : UInt8} {start length further value low high : Nat}
    (inside : low ≤ byte.toNat ∧ byte.toNat ≤ high) :
    decodeFrom read index (some ⟨start, length, further + 1, value, low, high⟩) (byte :: rest) =
      decodeFrom read (index + 1)
        (some ⟨start, length + 1, further, 64 * value + (byte.toNat - 0x80), 0x80, 0xBF⟩) rest := by
  rw [decodeFrom, if_pos inside]

theorem decodeFrom_last {byte : UInt8} {start length value low high : Nat}
    (inside : low ≤ byte.toNat ∧ byte.toNat ≤ high) :
    decodeFrom read index (some ⟨start, length, 0, value, low, high⟩) (byte :: rest) =
      decodeFrom (Char.ofNat (64 * value + (byte.toNat - 0x80)) :: read) (index + 1) none rest := by
  rw [decodeFrom, if_pos inside]

/-- The number of a character is below the surrogates or above them. -/
theorem toNat_range (character : Char) :
    character.toNat < 0xD800 ∨ 0xDFFF < character.toNat ∧ character.toNat < 0x110000 :=
  character.valid

theorem toNat_ofNat (value : Nat) (low : value < 256) : (UInt8.ofNat value).toNat = value := by
  rw [UInt8.toNat_ofNat', Nat.mod_eq_of_lt low]

/-- The bytes of a character are read as this character. -/
theorem decodeFrom_utf8EncodeChar (read : List Char) (index : Nat) (character : Char)
    (rest : List UInt8) :
    ∃ behind, decodeFrom read index none (utf8EncodeChar character ++ rest) =
      decodeFrom (character :: read) behind none rest := by
  have range := toNat_range character
  have value : character.val.toNat = character.toNat := rfl
  have made : Char.ofNat character.toNat = character := Char.ofNat_toNat character
  simp only [utf8EncodeChar, value]
  generalize character.toNat = number at range made
  split_ifs with one two three
  · have byte := toNat_ofNat number (by omega)
    rw [List.cons_append, decodeFrom_single (by omega), byte, made]
    exact ⟨_, rfl⟩
  · have first := toNat_ofNat (number / 64 % 32 + 192) (by omega)
    have second := toNat_ofNat (number % 64 + 128) (by omega)
    have whole : 64 * (number / 64 % 32 + 192 - 0xC0) + (number % 64 + 128 - 0x80) = number := by
      omega
    simp only [List.cons_append, List.nil_append]
    rw [decodeFrom_first (by omega) (PartialCharacter.start?_two (by omega) (by omega)),
      decodeFrom_last (by omega), first, second, whole, made]
    exact ⟨_, rfl⟩
  · have first := toNat_ofNat (number / 4096 % 16 + 224) (by omega)
    have second := toNat_ofNat (number / 64 % 64 + 128) (by omega)
    have third := toNat_ofNat (number % 64 + 128) (by omega)
    have whole : 64 * (64 * (number / 4096 % 16 + 224 - 0xE0) + (number / 64 % 64 + 128 - 0x80)) +
        (number % 64 + 128 - 0x80) = number := by
      omega
    simp only [List.cons_append, List.nil_append]
    rw [decodeFrom_first (by omega) (PartialCharacter.start?_three (by omega) (by omega)),
      decodeFrom_middle (by split_ifs <;> omega), decodeFrom_last (by omega), first, second, third,
      whole, made]
    exact ⟨_, rfl⟩
  · have first := toNat_ofNat (number / 262144 % 8 + 240) (by omega)
    have second := toNat_ofNat (number / 4096 % 64 + 128) (by omega)
    have third := toNat_ofNat (number / 64 % 64 + 128) (by omega)
    have fourth := toNat_ofNat (number % 64 + 128) (by omega)
    have whole : 64 * (64 * (64 * (number / 262144 % 8 + 240 - 0xF0) +
        (number / 4096 % 64 + 128 - 0x80)) + (number / 64 % 64 + 128 - 0x80)) +
        (number % 64 + 128 - 0x80) = number := by
      omega
    simp only [List.cons_append, List.nil_append]
    rw [decodeFrom_first (by omega) (PartialCharacter.start?_four (by omega) (by omega)),
      decodeFrom_middle (by split_ifs <;> omega), decodeFrom_middle (by omega),
      decodeFrom_last (by omega), first, second, third, fourth, whole, made]
    exact ⟨_, rfl⟩

theorem decodeFrom_bytesOf (text read : List Char) (index : Nat) :
    decodeFrom read index none (bytesOf text) = .ok (read.reverse ++ text) := by
  induction text generalizing read index with
  | nil =>
      rw [List.append_nil]
      rfl
  | cons character text ih =>
      obtain ⟨behind, same⟩ := decodeFrom_utf8EncodeChar read index character (bytesOf text)
      rw [bytesOf_cons, same, ih, List.reverse_cons, List.append_assoc, List.singleton_append]

/-- The bytes of a text stand for the text. -/
theorem decodeUtf8_bytesOf (text : List Char) :
    decodeUtf8 (bytesOf text) = .ok (String.ofList text) := by
  rw [decodeUtf8, decodeFrom_bytesOf]
  rfl

/-! ## Single bytes in a text -/

/-- A byte below 128 is a character of its own. -/
theorem eq_of_mem_utf8EncodeChar {byte : UInt8} (low : byte.toNat < 0x80) {character : Char}
    (member : byte ∈ utf8EncodeChar character) : character = Char.ofNat byte.toNat := by
  have range := toNat_range character
  have value : character.val.toNat = character.toNat := rfl
  have made : Char.ofNat character.toNat = character := Char.ofNat_toNat character
  have below {number : Nat} (same : byte = UInt8.ofNat number) (inside : number < 256) :
      number < 0x80 := by
    rwa [same, toNat_ofNat _ inside] at low
  simp only [utf8EncodeChar, value] at member
  generalize character.toNat = number at range made member
  split_ifs at member <;> simp only [List.mem_cons, List.not_mem_nil, or_false] at member
  · rw [member, toNat_ofNat _ (by omega), made]
  · rcases member with same | same <;> have := below same (by omega) <;> omega
  · rcases member with same | same | same <;> have := below same (by omega) <;> omega
  · rcases member with same | same | same | same <;> have := below same (by omega) <;> omega

theorem mem_of_mem_bytesOf {byte : UInt8} (low : byte.toNat < 0x80) {text : List Char}
    (member : byte ∈ bytesOf text) : Char.ofNat byte.toNat ∈ text := by
  obtain ⟨character, inside, own⟩ := List.mem_flatMap.1 member
  exact eq_of_mem_utf8EncodeChar low own ▸ inside

theorem getLast?_of_getLast?_bytesOf {byte : UInt8} (low : byte.toNat < 0x80) {text : List Char}
    (last : (bytesOf text).getLast? = some byte) :
    text.getLast? = some (Char.ofNat byte.toNat) := by
  rcases List.eq_nil_or_concat' text with rfl | ⟨front, character, rfl⟩
  · cases last
  · have own : (utf8EncodeChar character).getLast? = some byte := by
      rwa [bytesOf_append, bytesOf_singleton,
        List.getLast?_append_of_ne_nil _ String.utf8EncodeChar_ne_nil] at last
    rw [List.getLast?_concat, eq_of_mem_utf8EncodeChar low (List.mem_of_getLast? own)]

end Lox.Text
