/-
# Reading the stream off the bytes

`scan` gives the whole stream of a text, cut by characters.  A `ByteScanner` gives the
items one by one, each when it is asked for, and reads the text byte by byte: a place
moves over the bytes, one lexeme after the other.

Nothing but its own tests keeps the place within the text and out of the middle of a
character.  So everything that reads the text says what becomes of it if they do not: a
byte that the text does not have, or a piece that does not lie between boundaries, is a
breach, and after a breach nothing goes on.
-/

import Lox.Stream
import Lox.Text.Bytes

namespace Lox

/-- What must not happen while a text is read. -/
inductive Breach where
  /-- A byte is read where the text has none. -/
  | noByte (place : Nat)
  /-- The text or its bytes are taken between places that are out of order, outside the
  text or, for a text, inside a character. -/
  | noPiece (first last : Nat)
deriving DecidableEq

/-- The decimal that a numeral spells: digits, and perhaps a point and more digits. -/
def Decimal.ofNumeral? (numeral : List Char) : Option Decimal :=
  let whole := numeral.takeWhile Char.isDigit
  match numeral.dropWhile Char.isDigit with
  | [] => if whole.isEmpty then none else some (.ofDigits whole [])
  | '.' :: fraction =>
    if whole.isEmpty || fraction.isEmpty || !fraction.all Char.isDigit then none
    else some (.ofDigits whole fraction)
  | _ => none

/-- The reserved word whose spelling has the given bytes, if there is one. -/
def Keyword.ofBytes? (spelling : List UInt8) : Option Keyword :=
  all.find? fun keyword => Text.bytes keyword.spelling = spelling

/-- Where the reading of a text is. -/
structure ByteScanner where
  /-- The place of the first byte of the lexeme. -/
  start : Nat
  /-- The place behind the last byte that was read. -/
  place : Nat
  line : Nat
  /-- The kind of the lexeme, as soon as it is known to be a token. -/
  pending : Option TokenKind
deriving DecidableEq

namespace ByteScanner

open Text (characterOf)

/-- Nothing has been read. -/
def initial : ByteScanner :=
  ⟨0, 0, 1, none⟩

/-! ## Reading bytes -/

section

variable (source : String)

def isAtEnd (scanner : ByteScanner) : Bool :=
  source.utf8ByteSize ≤ scanner.place

/-- Reads the next byte. -/
def advance (scanner : ByteScanner) : Except Breach (UInt8 × ByteScanner) :=
  match (Text.bytes source)[scanner.place]? with
  | some byte => .ok (byte, { scanner with place := scanner.place + 1 })
  | none => .error (.noByte scanner.place)

/-- The next byte, which stays unread, or zero at the end of the text. -/
def peek (scanner : ByteScanner) : UInt8 :=
  (Text.bytes source).getD scanner.place 0

/-- The byte behind the next one, or zero if there is none. -/
def peekNext (scanner : ByteScanner) : UInt8 :=
  (Text.bytes source).getD (scanner.place + 1) 0

/-- Reads the next byte if it is the given character, and tells whether it was. -/
def accept (expected : Char) (scanner : ByteScanner) : Except Breach (Bool × ByteScanner) := do
  if !scanner.isAtEnd source && characterOf (scanner.peek source) = expected then
    let (_, scanner) ← scanner.advance source
    return (true, scanner)
  else
    return (false, scanner)

/-- The piece of the text between two places. -/
def piece (first last : Nat) : Except Breach String :=
  match Text.piece? source first last with
  | some text => .ok text
  | none => .error (.noPiece first last)

/-- The bytes between two places. -/
def bytesBetween (first last : Nat) : Except Breach (List UInt8) :=
  match Text.bytesBetween? source first last with
  | some bytes => .ok bytes
  | none => .error (.noPiece first last)

theorem advance_eq_ok {source : String} {scanner next : ByteScanner} {byte : UInt8}
    (read : scanner.advance source = .ok (byte, next)) :
    scanner.place < source.utf8ByteSize ∧ next = { scanner with place := scanner.place + 1 } := by
  unfold advance at read
  split at read
  · next found =>
      cases read
      exact ⟨(List.getElem?_eq_some_iff.1 found).1, rfl⟩
  · cases read

/-- Reads bytes as long as the next one is of a kind. -/
def advanceWhile (goesOn : Char → Bool) (scanner : ByteScanner) : Except Breach ByteScanner :=
  if goesOn (characterOf (scanner.peek source)) then
    match _ : scanner.advance source with
    | .ok (_, next) => advanceWhile goesOn next
    | .error breach => .error breach
  else .ok scanner
termination_by source.utf8ByteSize - scanner.place
decreasing_by
  obtain ⟨inside, rfl⟩ := advance_eq_ok ‹_›
  exact Nat.sub_succ_lt_self _ _ inside

/-- Reads bytes up to a quote or the end of the text, and counts the newlines. -/
def advanceToQuote (scanner : ByteScanner) : Except Breach ByteScanner :=
  if !scanner.isAtEnd source && characterOf (scanner.peek source) ≠ '"' then
    match _ : scanner.advance source with
    | .ok (byte, next) =>
      advanceToQuote
        (if byte = '\n'.toUInt8 then { next with line := next.line + 1 } else next)
    | .error breach => .error breach
  else .ok scanner
termination_by source.utf8ByteSize - scanner.place
decreasing_by
  obtain ⟨inside, rfl⟩ := advance_eq_ok ‹_›
  split <;> exact Nat.sub_succ_lt_self _ _ inside

end

/-! ## Reading a lexeme

Each of these goes on behind the first byte of a lexeme.  It tells the error that the
lexeme is, if it is one. -/

section

variable (search : Text.ByteSearch) (source : String)

/-- A comment up to the next newline, which is left to be read. -/
def lineComment (scanner : ByteScanner) : Except Breach (Option StreamItem × ByteScanner) := do
  let behind ← bytesBetween source scanner.place source.utf8ByteSize
  match search.byte? '\n'.toUInt8 behind with
  | some distance => return (none, { scanner with place := scanner.place + distance })
  | none => return (none, { scanner with place := source.utf8ByteSize })

/-- A comment up to the next `*/`. -/
def blockComment (scanner : ByteScanner) : Except Breach (Option StreamItem × ByteScanner) := do
  let behind ← bytesBetween source scanner.place source.utf8ByteSize
  match search.row? ['*'.toUInt8, '/'.toUInt8] behind with
  | some distance =>
    let inside ← bytesBetween source scanner.place (scanner.place + distance)
    let line := scanner.line + search.count '\n'.toUInt8 inside
    return (none, { scanner with place := scanner.place + distance + 2, line })
  | none =>
    let line := scanner.line + search.count '\n'.toUInt8 behind
    return (some (.error .unterminatedComment line),
      { scanner with place := source.utf8ByteSize, line })

/-- A comment, or just a slash. -/
def slash (scanner : ByteScanner) : Except Breach (Option StreamItem × ByteScanner) := do
  let (ofLine, scanner) ← scanner.accept source '/'
  if ofLine then
    scanner.lineComment search source
  else
    let (ofBlock, scanner) ← scanner.accept source '*'
    if ofBlock then
      scanner.blockComment search source
    else
      return (none, { scanner with pending := some (.symbol .slash) })

/-- A string whose opening quote has been read. -/
def string (scanner : ByteScanner) : Except Breach (Option StreamItem × ByteScanner) := do
  let scanner ← scanner.advanceToQuote source
  if scanner.isAtEnd source then
    return (some (.error .unterminatedString scanner.line), scanner)
  else
    let (_, scanner) ← scanner.advance source
    let inside ← piece source (scanner.start + 1) (scanner.place - 1)
    return (none, { scanner with pending := some (.string inside) })

/-- The point and the digits behind it, if a digit is behind it. -/
def fraction (scanner : ByteScanner) : Except Breach ByteScanner := do
  if characterOf (scanner.peek source) = '.' && (characterOf (scanner.peekNext source)).isDigit then
    let (_, scanner) ← scanner.advance source
    scanner.advanceWhile source Char.isDigit
  else
    return scanner

/-- A number that has been read up to its end.  Its text is always a numeral. -/
def numeral (scanner : ByteScanner) : Except Breach (Option StreamItem × ByteScanner) := do
  let text ← piece source scanner.start scanner.place
  let value? := (Decimal.ofNumeral? text.toList).map fun decimal =>
    Binary64.toFloat false decimal.nearest
  return (none, { scanner with pending := some (.number (value?.getD 0)) })

/-- A number whose first digit has been read. -/
def number (scanner : ByteScanner) : Except Breach (Option StreamItem × ByteScanner) := do
  let scanner ← scanner.advanceWhile source Char.isDigit
  let scanner ← scanner.fraction source
  scanner.numeral source

/-- A word whose first letter has been read. -/
def word (scanner : ByteScanner) : Except Breach (Option StreamItem × ByteScanner) := do
  let scanner ← scanner.advanceWhile source isWordPart
  let spelling ← bytesBetween source scanner.start scanner.place
  let kind :=
    match Keyword.ofBytes? spelling with
    | some keyword => .keyword keyword
    | none => .identifier
  return (none, { scanner with pending := some kind })

/-- A character with which no lexeme starts; what is left of its bytes is skipped. -/
def unexpected (scanner : ByteScanner) : Except Breach (Option StreamItem × ByteScanner) := do
  let behind ← piece source scanner.start source.utf8ByteSize
  let character := behind.toList.head?.getD '\uFFFD'
  return (some (.error (.unexpectedCharacter character) scanner.line),
    { scanner with place := scanner.start + character.utf8Size })

/-- An operator that is longer in front of `=`. -/
def comparison (alone beforeEqual : Symbol) (scanner : ByteScanner) :
    Except Breach (Option StreamItem × ByteScanner) := do
  let (longer, scanner) ← scanner.accept source '='
  return (none,
    { scanner with pending := some (.symbol (if longer then beforeEqual else alone)) })

/-- What a byte starts, given by its character, behind this byte. -/
def behindFirst (first : Char) (scanner : ByteScanner) :
    Except Breach (Option StreamItem × ByteScanner) :=
  if first = '\n' then .ok (none, { scanner with line := scanner.line + 1 })
  else if Cut.isBlank first then .ok (none, scanner)
  else if isWordStart first then scanner.word source
  else if first.isDigit then scanner.number source
  else if first = '"' then scanner.string source
  else if first = '/' then scanner.slash search source
  else
    match Symbol.ofCharacter? first, Symbol.ofComparison? first with
    | some symbol, _ => .ok (none, { scanner with pending := some (.symbol symbol) })
    | none, some (alone, beforeEqual) => scanner.comparison source alone beforeEqual
    | none, none => scanner.unexpected source

/-- Reads one lexeme. -/
def lexeme (scanner : ByteScanner) : Except Breach (Option StreamItem × ByteScanner) := do
  let (byte, scanner) ← scanner.advance source
  scanner.behindFirst search source (characterOf byte)

end

end ByteScanner

end Lox
