/-
# Characters among bytes

A text falls into characters, and its bytes into theirs.  Wherever a text is split
between two characters its bytes have a boundary, and what lies between two such places
is the text between them.

A character below 128 is one byte, and none of the bytes of another character is like
it.  So whoever reads bytes and asks of each only what is asked of such characters finds
the end of a row, a newline or a comment at the same place as someone who reads
characters.
-/

import Mathlib.Data.List.TakeWhile
import Mathlib.Data.List.Infix
import Lox.Text.Bytes
import Lox.Proofs.Encoding

namespace Lox.Text

open String (utf8EncodeChar)

theorem bytes_eq (source : String) : bytes source = bytesOf source.toList :=
  toUTF8_eq source

theorem length_bytes (source : String) : (bytes source).length = source.utf8ByteSize :=
  Array.length_toList

theorem length_bytesOf (text : List Char) :
    (bytesOf text).length = (String.ofList text).utf8ByteSize := by
  rw [← length_bytes, bytes_eq, String.toList_ofList]

theorem length_bytesOf_pos {text : List Char} (some : text ≠ []) : 0 < (bytesOf text).length := by
  obtain ⟨character, rest, rfl⟩ := List.exists_cons_of_ne_nil some
  rw [bytesOf_cons, List.length_append]
  exact Nat.add_pos_left (List.length_pos_iff.2 String.utf8EncodeChar_ne_nil) _

theorem length_bytesOf_le {first second : List Char} (inFront : first <+: second) :
    (bytesOf first).length ≤ (bytesOf second).length := by
  obtain ⟨rest, rfl⟩ := inFront
  rw [bytesOf_append, List.length_append]
  exact Nat.le_add_right _ _

/-- Two texts with the same bytes are the same. -/
theorem bytes_inj {first second : String} : bytes first = bytes second ↔ first = second := by
  rw [← String.toByteArray_inj]
  exact Array.toList_inj.trans ByteArray.ext_iff.symm

theorem bytes_extract {source : String} (first last : source.Pos) :
    bytes (source.extract first last) =
      ((bytes source).drop first.offset.byteIdx).take
        (last.offset.byteIdx - first.offset.byteIdx) := by
  have taken : bytes (source.extract first last) =
      (source.toByteArray.extract first.offset.byteIdx last.offset.byteIdx).data.toList := rfl
  rw [taken, ByteArray.data_extract, Array.toList_extract, List.extract_eq_take_drop]
  rfl

/-! ## Pieces between boundaries -/

section

variable {source : String} {before text after : List Char}

/-- Between two characters there is a boundary. -/
theorem isBoundary_of_toList (whole : source.toList = before ++ after) :
    IsBoundary source (bytesOf before).length := by
  refine String.Pos.Raw.isValid_iff_exists_append.2
    ⟨String.ofList before, String.ofList after, ?_, ?_⟩
  · rw [← String.ofList_append, ← whole, String.ofList_toList]
  · rw [length_bytesOf]
    rfl

theorem isBoundary_append (whole : source.toList = before ++ text ++ after) :
    IsBoundary source ((bytesOf before).length + (bytesOf text).length) := by
  rw [← List.length_append, ← bytesOf_append]
  exact isBoundary_of_toList whole

theorem take_drop_bytes (whole : source.toList = before ++ text ++ after) :
    ((bytes source).drop (bytesOf before).length).take
      ((bytesOf before).length + (bytesOf text).length - (bytesOf before).length) =
        bytesOf text := by
  rw [bytes_eq, whole, bytesOf_append, bytesOf_append, List.append_assoc, List.drop_left,
    Nat.add_sub_cancel_left, List.take_left]

/-- Between two boundaries there is a text. -/
theorem piece?_of_toList (whole : source.toList = before ++ text ++ after) :
    piece? source (bytesOf before).length ((bytesOf before).length + (bytesOf text).length) =
      some (String.ofList text) := by
  have starts : IsBoundary source (bytesOf before).length :=
    isBoundary_of_toList (whole.trans (List.append_assoc _ _ _))
  rw [piece?, dif_pos starts, dif_pos (isBoundary_append whole), if_pos (Nat.le_add_right _ _),
    Option.some.injEq, ← bytes_inj, bytes_extract, take_drop_bytes whole, bytes_eq,
    String.toList_ofList]

/-- And only between two boundaries. -/
theorem of_piece?_eq_some {first last : Nat} {piece : String}
    (found : piece? source first last = some piece) :
    IsBoundary source first ∧ IsBoundary source last ∧ first ≤ last := by
  unfold piece? at found
  split at found
  · next starts =>
      split at found
      · next ends =>
          split at found
          · next ordered => exact ⟨starts, ends, ordered⟩
          · cases found
      · cases found
  · cases found

/-- The bytes between two boundaries are those of the text between them. -/
theorem bytesBetween?_of_toList (whole : source.toList = before ++ text ++ after) :
    bytesBetween? source (bytesOf before).length
      ((bytesOf before).length + (bytesOf text).length) = some (bytesOf text) := by
  have inside := String.Pos.Raw.IsValid.le_utf8ByteSize (isBoundary_append whole)
  rw [bytesBetween?, if_pos ⟨Nat.le_add_right _ _, inside⟩, take_drop_bytes whole]

end

/-! ## Characters of one byte -/

/-- A character that is one byte. -/
def IsSmall (character : Char) : Prop :=
  character.toNat < 0x80

instance (character : Char) : Decidable (IsSmall character) :=
  inferInstanceAs (Decidable (character.toNat < 0x80))

/-- A question about characters that has one answer for all those of several bytes. -/
def IsCoarse (kind : Char → Bool) : Prop :=
  ∀ first second, ¬ IsSmall first → ¬ IsSmall second → kind first = kind second

theorem isCoarse_of_small {kind : Char → Bool}
    (small : ∀ character, kind character = true → IsSmall character) : IsCoarse kind := by
  intro first second large large'
  rw [Bool.eq_false_iff.2 (mt (small first) large), Bool.eq_false_iff.2 (mt (small second) large')]

theorem isCoarse_ne {stop : Char} (small : IsSmall stop) :
    IsCoarse fun character => decide (character ≠ stop) := by
  intro first second large large'
  have other {character : Char} (large : ¬ IsSmall character) : character ≠ stop := by
    rintro rfl
    exact large small
  exact (decide_eq_true (other large)).trans (decide_eq_true (other large')).symm

section

variable {character : Char} {kind : Char → Bool}

theorem utf8EncodeChar_of_small (small : IsSmall character) :
    utf8EncodeChar character = [character.toUInt8] :=
  String.utf8EncodeChar_eq_singleton (Char.utf8Size_eq_one_iff.2 (Nat.le_of_lt_succ small))

theorem characterOf_toUInt8 (small : IsSmall character) :
    characterOf character.toUInt8 = character := by
  have same : character.toUInt8.toNat = character.toNat :=
    Nat.mod_eq_of_lt (Nat.lt_trans small (by decide))
  rw [characterOf, same, Char.ofNat_toNat]

theorem length_bytesOf_cons (small : IsSmall character) (text : List Char) :
    (bytesOf (character :: text)).length = (bytesOf text).length + 1 := by
  rw [bytesOf_cons, utf8EncodeChar_of_small small]
  rfl

theorem toNat_characterOf (byte : UInt8) : (characterOf byte).toNat = byte.toNat := by
  have valid : byte.toNat.isValidChar := .inl (Nat.lt_trans byte.toNat_lt (by decide))
  rw [characterOf, Char.ofNat, dif_pos valid]
  rfl

/-- A byte below 128 is the only one of its character. -/
theorem eq_characterOf {byte : UInt8} (small : IsSmall (characterOf byte))
    (member : byte ∈ utf8EncodeChar character) : character = characterOf byte :=
  eq_of_mem_utf8EncodeChar (toNat_characterOf byte ▸ small) member

/-- A small character is the one among whose bytes its own byte is. -/
theorem eq_of_toUInt8_mem {other : Char} (small : IsSmall character)
    (member : character.toUInt8 ∈ utf8EncodeChar other) : other = character := by
  have own := characterOf_toUInt8 small
  exact (eq_characterOf (own.symm ▸ small) member).trans own

/-- A coarse question is answered alike for a character and for each of its bytes. -/
theorem IsCoarse.characterOf (coarse : IsCoarse kind) {byte : UInt8}
    (member : byte ∈ utf8EncodeChar character) : kind (characterOf byte) = kind character := by
  by_cases small : IsSmall character
  · rw [utf8EncodeChar_of_small small, List.mem_singleton] at member
    rw [member, characterOf_toUInt8 small]
  · refine coarse _ _ (fun single => small ?_) small
    rwa [eq_characterOf single member]

end

/-- A coarse question is answered with yes by as many bytes as by characters from the
start of a text on. -/
theorem IsCoarse.takeWhile_bytesOf {kind : Char → Bool} (coarse : IsCoarse kind)
    (text : List Char) :
    (bytesOf text).takeWhile (kind ∘ Text.characterOf) = bytesOf (text.takeWhile kind) := by
  induction text with
  | nil => rfl
  | cons character text ih =>
      rw [bytesOf_cons]
      by_cases goesOn : kind character = true
      · have all : ∀ byte ∈ utf8EncodeChar character, (kind ∘ Text.characterOf) byte = true :=
          fun _ member => (coarse.characterOf member).trans goesOn
        rw [List.takeWhile_append_of_pos all, ih, List.takeWhile_cons_of_pos goesOn, bytesOf_cons]
      · obtain ⟨byte, more, same⟩ := List.exists_cons_of_ne_nil
          (String.utf8EncodeChar_ne_nil (c := character))
        have stops : ¬ (kind ∘ Text.characterOf) byte = true := by
          rwa [Function.comp_apply, coarse.characterOf (same ▸ List.mem_cons_self)]
        rw [same, List.cons_append, List.takeWhile_cons_of_neg stops,
          List.takeWhile_cons_of_neg goesOn]
        rfl

/-- The first byte answers a coarse question for the first character. -/
theorem IsCoarse.headD_bytesOf {kind : Char → Bool} (coarse : IsCoarse kind) (text : List Char) :
    kind (Text.characterOf ((bytesOf text).headD 0)) = kind (text.headD '\x00') := by
  cases text with
  | nil => rfl
  | cons character text =>
      obtain ⟨byte, more, same⟩ := List.exists_cons_of_ne_nil
        (String.utf8EncodeChar_ne_nil (c := character))
      rw [bytesOf_cons, same, List.cons_append, List.headD_cons, List.headD_cons,
        coarse.characterOf (same ▸ List.mem_cons_self)]

/-- A small character stands as often among the bytes as in the text. -/
theorem count_bytesOf {character : Char} (small : IsSmall character) (text : List Char) :
    (bytesOf text).count character.toUInt8 = text.count character := by
  induction text with
  | nil => rfl
  | cons first text ih =>
      rw [bytesOf_cons, List.count_append, ih, List.count_cons, Nat.add_comm]
      congr 1
      by_cases same : first = character
      · rw [same, utf8EncodeChar_of_small small, List.count_singleton_self,
          if_pos (beq_self_eq_true character)]
      · rw [if_neg (by simpa using same), List.count_eq_zero]
        exact fun member => same (eq_of_toUInt8_mem small member)

end Lox.Text
