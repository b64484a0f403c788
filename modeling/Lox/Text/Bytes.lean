/-
# The bytes of a text

A text is kept as bytes, in UTF-8, and a character may take several of them.  A place
among the bytes is a boundary if no character goes on across it; only between
boundaries does a text have pieces that are texts.  A row of bytes can be taken between
any two places that the text has.

What one can look for among bytes stands here as well, apart from how it is found.
-/

namespace Lox.Text

/-- The bytes of a text. -/
def bytes (source : String) : List UInt8 :=
  source.toUTF8.data.toList

/-- The character with the number of a byte.  Below 128 it is the one that the byte
stands for. -/
def characterOf (byte : UInt8) : Char :=
  Char.ofNat byte.toNat

/-- A place where a character of the text starts, or its end. -/
def IsBoundary (source : String) (place : Nat) : Prop :=
  String.Pos.Raw.IsValid source ⟨place⟩

instance (source : String) (place : Nat) : Decidable (IsBoundary source place) :=
  inferInstanceAs (Decidable (String.Pos.Raw.IsValid source ⟨place⟩))

/-- The piece of a text between two boundaries. -/
def piece? (source : String) (first last : Nat) : Option String :=
  if starts : IsBoundary source first then
    if ends : IsBoundary source last then
      if first ≤ last then some (source.extract ⟨⟨first⟩, starts⟩ ⟨⟨last⟩, ends⟩) else none
    else none
  else none

/-- The bytes between two places of a text. -/
def bytesBetween? (source : String) (first last : Nat) : Option (List UInt8) :=
  if first ≤ last ∧ last ≤ source.utf8ByteSize then
    some (((bytes source).drop first).take (last - first))
  else none

/-- Ways to look for something in a row of bytes. -/
structure ByteSearch where
  /-- The place of a byte. -/
  byte? : UInt8 → List UInt8 → Option Nat
  /-- The number of times a byte is there. -/
  count : UInt8 → List UInt8 → Nat
  /-- The place of a row of bytes. -/
  row? : List UInt8 → List UInt8 → Option Nat

namespace ByteSearch

/-- A byte stands at a place, and at none in front of it. -/
def IsFirst (byte : UInt8) (bytes : List UInt8) (place : Nat) : Prop :=
  bytes[place]? = some byte ∧ ∀ earlier < place, bytes[earlier]? ≠ some byte

/-- A row of bytes stands at a place, and at none in front of it. -/
def IsFirstRow (row bytes : List UInt8) (place : Nat) : Prop :=
  row <+: bytes.drop place ∧ ∀ earlier < place, ¬ row <+: bytes.drop earlier

/-- A search finds the first place, if there is one, and counts all of them. -/
structure FindsFirst (search : ByteSearch) : Prop where
  byte?_eq_some_iff : ∀ byte bytes place,
    search.byte? byte bytes = some place ↔ IsFirst byte bytes place
  count_eq : ∀ byte bytes, search.count byte bytes = bytes.count byte
  row?_eq_some_iff : ∀ row bytes place,
    search.row? row bytes = some place ↔ IsFirstRow row bytes place

/-- The search that tries one place after the other. -/
def inOrder : ByteSearch where
  byte? := List.idxOf?
  count := List.count
  row? row bytes := (List.range (bytes.length + 1)).find? fun place =>
    row.isPrefixOf (bytes.drop place)

end ByteSearch

end Lox.Text
