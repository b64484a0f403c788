/-
# What a scanner reads of a text

A scanner that has read some characters of a lexeme stands between two characters of the
text.  From there it reads bytes, but what it asks of them it could as well ask of the
characters: it goes on over whole characters, and whenever it reads a byte there is one.
-/

import Mathlib.Data.List.GetD
import Lox.ByteScanner.Stream
import Lox.Proofs.ByteSearch

namespace Lox.ByteScanner

open Text (bytes bytesOf characterOf IsSmall IsCoarse)

variable {source : String} {scanner : ByteScanner}

/-! ## Bytes that remain -/

/-- The bytes of a text from a place on. -/
def Remains (source : String) (place : Nat) (rest : List UInt8) : Prop :=
  ∃ front, bytes source = front ++ rest ∧ front.length = place

section

variable {place : Nat} {byte : UInt8} {rest : List UInt8}

theorem Remains.getD (remains : Remains source place rest) (further : Nat) :
    (bytes source).getD (place + further) 0 = rest.getD further 0 := by
  obtain ⟨front, same, rfl⟩ := remains
  rw [same, List.getD_append_right _ _ _ _ (Nat.le_add_right _ _), Nat.add_sub_cancel_left]

theorem Remains.size (remains : Remains source place rest) :
    source.utf8ByteSize = place + rest.length := by
  obtain ⟨front, same, rfl⟩ := remains
  rw [← Text.length_bytes, same, List.length_append]

theorem Remains.tail (remains : Remains source place (byte :: rest)) :
    Remains source (place + 1) rest := by
  obtain ⟨front, same, rfl⟩ := remains
  exact ⟨front ++ [byte], by rw [same, List.append_assoc, List.singleton_append],
    List.length_append⟩

theorem Remains.peek (remains : Remains source scanner.place rest) :
    scanner.peek source = rest.headD 0 := by
  have next := remains.getD 0
  rw [Nat.add_zero] at next
  rw [ByteScanner.peek, next]
  cases rest <;> rfl

theorem Remains.isAtEnd (remains : Remains source scanner.place rest) :
    scanner.isAtEnd source = rest.isEmpty := by
  rw [ByteScanner.isAtEnd, remains.size]
  cases rest with
  | nil => exact decide_eq_true (Nat.le_refl _)
  | cons => exact decide_eq_false (Nat.not_le.2 (Nat.lt_add_of_pos_right (Nat.succ_pos _)))

/-- As long as bytes remain the next one can be read. -/
theorem Remains.advance (remains : Remains source scanner.place (byte :: rest)) :
    scanner.advance source = .ok (byte, { scanner with place := scanner.place + 1 }) := by
  have found : (bytes source)[scanner.place]? = some byte := by
    obtain ⟨front, same, length⟩ := remains
    rw [same, ← length, List.getElem?_append_right (Nat.le_refl _), Nat.sub_self]
    rfl
  rw [ByteScanner.advance, found]

/-- A loop over the bytes takes the next one, or ends in front of it. -/
theorem Remains.advanceWhile_cons (goesOn : Char → Bool)
    (remains : Remains source scanner.place (byte :: rest)) :
    scanner.advanceWhile source goesOn =
      if (goesOn ∘ characterOf) byte then
        ({ scanner with place := scanner.place + 1 } : ByteScanner).advanceWhile source goesOn
      else .ok scanner := by
  rw [ByteScanner.advanceWhile, remains.peek, List.headD_cons, Function.comp_apply]
  split
  · split
    · next read =>
        rw [remains.advance] at read
        cases read
        rfl
    · next breached =>
        rw [remains.advance] at breached
        cases breached
  · rfl

theorem Remains.advanceWhile {goesOn : Char → Bool} (stops : goesOn '\x00' = false)
    (remains : Remains source scanner.place rest) :
    scanner.advanceWhile source goesOn = .ok { scanner with
      place := scanner.place + (rest.takeWhile (goesOn ∘ characterOf)).length } := by
  induction rest generalizing scanner with
  | nil =>
      have zero : goesOn (characterOf (scanner.peek source)) = false := by
        rwa [remains.peek]
      rw [ByteScanner.advanceWhile, zero, if_neg Bool.false_ne_true]
      rfl
  | cons byte rest ih =>
      rw [remains.advanceWhile_cons]
      by_cases goes : (goesOn ∘ characterOf) byte = true
      · rw [if_pos goes, ih remains.tail, List.takeWhile_cons_of_pos goes, List.length_cons,
          Nat.add_assoc, Nat.add_comm 1]
      · rw [if_neg goes, List.takeWhile_cons_of_neg goes]
        rfl

/-- A character that is no quote. -/
def isUnquoted (character : Char) : Bool :=
  decide (character ≠ '"')

theorem Remains.advanceToQuote_cons (remains : Remains source scanner.place (byte :: rest))
    (goes : isUnquoted (characterOf byte) = true) :
    scanner.advanceToQuote source = ({ scanner with
      place := scanner.place + 1
      line := scanner.line + [byte].count '\n'.toUInt8 } : ByteScanner).advanceToQuote source := by
  have inside : (!scanner.isAtEnd source && decide (characterOf (scanner.peek source) ≠ '"')) =
      true := by
    rw [remains.isAtEnd, remains.peek]
    exact goes
  rw [ByteScanner.advanceToQuote, if_pos inside]
  split
  · next read =>
      rw [remains.advance] at read
      cases read
      rw [List.count_singleton]
      by_cases newline : byte = '\n'.toUInt8
      · rw [if_pos newline, if_pos (beq_iff_eq.2 newline)]
      · rw [if_neg newline, if_neg (mt beq_iff_eq.1 newline)]
        rfl
  · next breached =>
      rw [remains.advance] at breached
      cases breached

/-- The loop over a string ends in front of a quote, or at the end of the text. -/
theorem Remains.advanceToQuote_stop (remains : Remains source scanner.place rest)
    (stops : ∀ byte ∈ rest.head?, isUnquoted (characterOf byte) = false) :
    scanner.advanceToQuote source = .ok scanner := by
  have stopped : (!scanner.isAtEnd source && decide (characterOf (scanner.peek source) ≠ '"')) =
      false := by
    rw [remains.isAtEnd, remains.peek]
    cases rest with
    | nil => rfl
    | cons byte rest => exact stops byte rfl
  rw [ByteScanner.advanceToQuote, stopped, if_neg Bool.false_ne_true]

theorem Remains.advanceToQuote (remains : Remains source scanner.place rest) :
    scanner.advanceToQuote source = .ok { scanner with
      place := scanner.place + (rest.takeWhile (isUnquoted ∘ characterOf)).length
      line := scanner.line +
        (rest.takeWhile (isUnquoted ∘ characterOf)).count '\n'.toUInt8 } := by
  induction rest generalizing scanner with
  | nil => exact remains.advanceToQuote_stop (by rintro _ ⟨⟩)
  | cons byte rest ih =>
      by_cases goes : (isUnquoted ∘ characterOf) byte = true
      · rw [remains.advanceToQuote_cons goes, ih remains.tail, List.takeWhile_cons_of_pos goes]
        generalize rest.takeWhile (isUnquoted ∘ characterOf) = taken
        have counted : (byte :: taken).count '\n'.toUInt8 =
            [byte].count '\n'.toUInt8 + taken.count '\n'.toUInt8 := by
          rw [← List.count_append, List.singleton_append]
        rw [counted, List.length_cons, Nat.add_comm taken.length, ← Nat.add_assoc, ← Nat.add_assoc]
      · rw [List.takeWhile_cons_of_neg goes]
        refine remains.advanceToQuote_stop ?_
        rintro _ ⟨⟩
        exact Bool.eq_false_iff.2 goes

end

/-! ## Characters that have been read -/

/-- Of the lexeme behind a text these characters have been read, and others remain. -/
structure HasRead (source : String) (scanner : ByteScanner) (before read rest : List Char) :
    Prop where
  whole : source.toList = before ++ read ++ rest
  start : scanner.start = (bytesOf before).length
  place : scanner.place = scanner.start + (bytesOf read).length

/-- The scanner behind some more characters. -/
def past (text : List Char) (scanner : ByteScanner) : ByteScanner :=
  { scanner with place := scanner.place + (bytesOf text).length }

/-- The same, with the newlines among them counted. -/
def pastCounting (text : List Char) (scanner : ByteScanner) : ByteScanner :=
  { scanner.past text with line := scanner.line + text.count '\n' }

theorem past_append (first second : List Char) (scanner : ByteScanner) :
    scanner.past (first ++ second) = (scanner.past first).past second := by
  rw [past, past, past, Text.bytesOf_append, List.length_append, Nat.add_assoc]

namespace HasRead

variable {before read text rest : List Char} {character : Char}

theorem past (hasRead : HasRead source scanner before read (text ++ rest)) :
    HasRead source (scanner.past text) before (read ++ text) rest where
  whole := by rw [hasRead.whole, List.append_assoc, List.append_assoc, List.append_assoc]
  start := hasRead.start
  place := by
    rw [ByteScanner.past, hasRead.place, Text.bytesOf_append, List.length_append, Nat.add_assoc]

theorem pastOne (hasRead : HasRead source scanner before read (character :: rest)) :
    HasRead source (scanner.past [character]) before (read ++ [character]) rest :=
  @HasRead.past _ _ _ _ [character] _ hasRead

theorem pastAll (hasRead : HasRead source scanner before read rest) :
    HasRead source (scanner.past rest) before (read ++ rest) [] := by
  apply HasRead.past
  rwa [List.append_nil]

/-- Only the two places matter. -/
theorem congr {other : ByteScanner} (hasRead : HasRead source scanner before read rest)
    (start : other.start = scanner.start) (place : other.place = scanner.place) :
    HasRead source other before read rest where
  whole := hasRead.whole
  start := start.trans hasRead.start
  place := by rw [place, start, hasRead.place]

theorem pastWhile (kind : Char → Bool) (hasRead : HasRead source scanner before read rest) :
    HasRead source (scanner.past (rest.takeWhile kind)) before (read ++ rest.takeWhile kind)
      (rest.dropWhile kind) := by
  apply HasRead.past
  rwa [List.takeWhile_append_dropWhile]

theorem remains (hasRead : HasRead source scanner before read rest) :
    Remains source scanner.place (bytesOf rest) := by
  refine ⟨bytesOf (before ++ read), ?_, ?_⟩
  · rw [Text.bytes_eq, hasRead.whole, Text.bytesOf_append]
  · rw [hasRead.place, hasRead.start, Text.bytesOf_append, List.length_append]

/-- What has been read lies between boundaries. -/
theorem piece (hasRead : HasRead source scanner before read rest) :
    ByteScanner.piece source scanner.start scanner.place = .ok (String.ofList read) := by
  rw [ByteScanner.piece, hasRead.place, hasRead.start, Text.piece?_of_toList hasRead.whole]

theorem pieceBehind (hasRead : HasRead source scanner before [] rest) :
    ByteScanner.piece source scanner.start source.utf8ByteSize = .ok (String.ofList rest) := by
  rw [hasRead.remains.size]
  exact hasRead.pastAll.piece

/-- So does what is left of it without its first and its last character. -/
theorem inner {last : Char} (smallFirst : IsSmall character) (smallLast : IsSmall last)
    (hasRead : HasRead source scanner before (character :: (text ++ [last])) rest) :
    ByteScanner.piece source (scanner.start + 1) (scanner.place - 1) =
      .ok (String.ofList text) := by
  have whole : source.toList = (before ++ [character]) ++ text ++ (last :: rest) := by
    simp [hasRead.whole]
  have start : scanner.start + 1 = (bytesOf (before ++ [character])).length := by
    rw [hasRead.start, Text.bytesOf_append, List.length_append,
      Text.length_bytesOf_cons smallFirst]
    rfl
  have place : scanner.place - 1 = scanner.start + 1 + (bytesOf text).length := by
    have none : (bytesOf []).length = 0 := rfl
    rw [hasRead.place, Text.length_bytesOf_cons smallFirst, Text.bytesOf_append,
      List.length_append, Text.length_bytesOf_cons smallLast]
    omega
  rw [ByteScanner.piece, place, start, Text.piece?_of_toList whole]

theorem bytesBetween (hasRead : HasRead source scanner before read rest) :
    ByteScanner.bytesBetween source scanner.start scanner.place = .ok (bytesOf read) := by
  rw [ByteScanner.bytesBetween, hasRead.place, hasRead.start,
    Text.bytesBetween?_of_toList hasRead.whole]

/-- The bytes of the next characters. -/
theorem bytesAhead (hasRead : HasRead source scanner before read (text ++ rest)) :
    ByteScanner.bytesBetween source scanner.place (scanner.place + (bytesOf text).length) =
      .ok (bytesOf text) := by
  have whole : source.toList = (before ++ read) ++ text ++ rest := by
    rw [hasRead.whole, List.append_assoc _ text]
  have place : scanner.place = (bytesOf (before ++ read)).length := by
    rw [hasRead.place, hasRead.start, Text.bytesOf_append, List.length_append]
  rw [ByteScanner.bytesBetween, place, Text.bytesBetween?_of_toList whole]

/-- The bytes of all that has not been read. -/
theorem bytesBehind (hasRead : HasRead source scanner before read rest) :
    ByteScanner.bytesBetween source scanner.place source.utf8ByteSize = .ok (bytesOf rest) := by
  rw [hasRead.remains.size]
  rw [← List.append_nil rest] at hasRead
  exact hasRead.bytesAhead

theorem advance (small : IsSmall character)
    (hasRead : HasRead source scanner before read (character :: rest)) :
    scanner.advance source = .ok (character.toUInt8, scanner.past [character]) := by
  have remains := hasRead.remains
  rw [Text.bytesOf_cons, Text.utf8EncodeChar_of_small small] at remains
  rw [remains.advance, ByteScanner.past, Text.bytesOf_singleton, Text.utf8EncodeChar_of_small small]
  rfl

theorem isAtEnd (hasRead : HasRead source scanner before read rest) :
    scanner.isAtEnd source = rest.isEmpty := by
  rw [hasRead.remains.isAtEnd]
  cases rest with
  | nil => rfl
  | cons first rest =>
      exact List.isEmpty_eq_false_iff.2
        (List.append_ne_nil_of_left_ne_nil String.utf8EncodeChar_ne_nil _)

/-- A coarse question about the next byte is one about the next character. -/
theorem peek {kind : Char → Bool} (coarse : IsCoarse kind)
    (hasRead : HasRead source scanner before read rest) :
    kind (characterOf (scanner.peek source)) = kind (rest.headD '\x00') := by
  rw [hasRead.remains.peek, coarse.headD_bytesOf]

theorem peekNext {kind : Char → Bool} (coarse : IsCoarse kind) (small : IsSmall character)
    (hasRead : HasRead source scanner before read (character :: rest)) :
    kind (characterOf (scanner.peekNext source)) = kind (rest.headD '\x00') := by
  have next := hasRead.remains.getD 1
  rw [Text.bytesOf_cons, Text.utf8EncodeChar_of_small small, List.singleton_append] at next
  rw [ByteScanner.peekNext, next, ← coarse.headD_bytesOf]
  cases bytesOf rest <;> rfl

/-- A character is accepted where the text goes on with it. -/
theorem accepts_iff {expected : Char} (small : IsSmall expected)
    (hasRead : HasRead source scanner before read rest) :
    (!scanner.isAtEnd source && decide (characterOf (scanner.peek source) = expected)) = true ↔
      rest.head? = some expected := by
  have coarse : IsCoarse fun character => decide (character = expected) :=
    Text.isCoarse_of_small fun character same => of_decide_eq_true same ▸ small
  have peeked := hasRead.peek coarse
  rw [hasRead.isAtEnd, peeked]
  cases rest <;> simp

theorem accept (small : IsSmall character)
    (hasRead : HasRead source scanner before read (character :: rest)) :
    scanner.accept source character = .ok (true, scanner.past [character]) := by
  rw [ByteScanner.accept, if_pos ((hasRead.accepts_iff small).2 rfl), hasRead.advance small]
  rfl

theorem accept_other {expected : Char} (small : IsSmall expected)
    (other : rest.head? ≠ some expected) (hasRead : HasRead source scanner before read rest) :
    scanner.accept source expected = .ok (false, scanner) := by
  rw [ByteScanner.accept, if_neg (mt (hasRead.accepts_iff small).1 other)]
  rfl

theorem advanceWhile {kind : Char → Bool} (coarse : IsCoarse kind) (stops : kind '\x00' = false)
    (hasRead : HasRead source scanner before read rest) :
    scanner.advanceWhile source kind = .ok (scanner.past (rest.takeWhile kind)) := by
  rw [hasRead.remains.advanceWhile stops, coarse.takeWhile_bytesOf]
  rfl

theorem advanceToQuote (hasRead : HasRead source scanner before read rest) :
    scanner.advanceToQuote source = .ok (scanner.pastCounting (rest.takeWhile isUnquoted)) := by
  have coarse : IsCoarse isUnquoted := Text.isCoarse_ne (by decide)
  rw [hasRead.remains.advanceToQuote, coarse.takeWhile_bytesOf, Text.count_bytesOf (by decide)]
  rfl

end HasRead

end Lox.ByteScanner
