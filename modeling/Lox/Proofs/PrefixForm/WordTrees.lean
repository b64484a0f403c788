/-
# Words and rows in parentheses

The prefix notation of a tree is a *word tree*: a word, or a row of word trees, its parts,
in parentheses with single blanks between them.  If no word is empty or has a blank or a
parenthesis in it, the text of a word tree says where it ends, whatever follows it, and
there is only one word tree with this text (`WordTree.eq_of_write_eq`).
-/

import Lox.Syntax.PrefixForm
import Lox.Proofs.Spelling

namespace Lox

/-- A word, or a row of parts in parentheses. -/
inductive WordTree where
  | word (text : String)
  | row (parts : List WordTree)

/-- A character that stands in words only. -/
def isWordCharacter (character : Char) : Bool :=
  character ≠ ' ' && character ≠ '(' && character ≠ ')'

/-- A text that is a word wherever it stands: it is not empty, and it has no blank and no
parenthesis in it. -/
def IsWord (text : List Char) : Prop :=
  text ≠ [] ∧ ∀ character ∈ text, isWordCharacter character = true

theorem isWord_iff {text : List Char} :
    IsWord text ↔ (!text.isEmpty && text.all isWordCharacter) = true := by
  simp [IsWord]

namespace WordTree

mutual

/-- The characters of a word tree. -/
def text : WordTree → List Char
  | word text => text.toList
  | row parts => '(' :: textInside parts

/-- The characters of a row behind the parenthesis that opens it. -/
def textInside : List WordTree → List Char
  | [] => [')']
  | part :: rest => part.text ++ textBehind rest

/-- The characters of a row behind its first part: the other ones, each with a blank in
front, and the parenthesis that closes the row. -/
def textBehind : List WordTree → List Char
  | [] => [')']
  | part :: rest => ' ' :: (part.text ++ textBehind rest)

end

mutual

/-- All words of a word tree are words wherever they stand. -/
def Clean : WordTree → Prop
  | word text => IsWord text.toList
  | row parts => AllClean parts

/-- All parts of a row are clean. -/
def AllClean : List WordTree → Prop
  | [] => True
  | part :: rest => part.Clean ∧ AllClean rest

end

theorem allClean_iff {parts : List WordTree} :
    AllClean parts ↔ ∀ part ∈ parts, part.Clean := by
  induction parts with
  | nil => simp [AllClean]
  | cons part rest ih => rw [AllClean, ih, List.forall_mem_cons]

/-- A word tree as a text. -/
def write (part : WordTree) : String :=
  String.ofList part.text

@[simp]
theorem write_word (text : String) : (word text).write = text := by
  rw [write, WordTree.text, String.ofList_toList]

theorem textBehind_eq (part : WordTree) (rest : List WordTree) :
    part.text ++ textBehind rest =
      (Text.separated " " ((part :: rest).map write)).toList ++ [')'] := by
  induction rest generalizing part with
  | nil => simp [textBehind, Text.separated, write]
  | cons second rest ih =>
      rw [textBehind, ih second]
      simp [Text.separated, write]

/-- A row is written as its parts in parentheses. -/
theorem write_row (parts : List WordTree) :
    (row parts).write = parenthesized (parts.map write) := by
  apply String.toList_injective
  rw [write, String.toList_ofList]
  cases parts with
  | nil => rfl
  | cons part rest =>
      rw [text, textInside, textBehind_eq]
      simp [parenthesized]

/-! ## One word tree to one text -/

/-- What may follow a word tree: nothing that goes on with a word. -/
def Ends (rest : List Char) : Prop :=
  ∀ character ∈ rest.head?, isWordCharacter character = false

theorem ends_nil : Ends [] := by
  intro character first
  cases first

theorem ends_textBehind (parts : List WordTree) (rest : List Char) :
    Ends (textBehind parts ++ rest) := by
  intro character first
  cases parts with
  | nil => cases first; rfl
  | cons part parts => cases first; rfl

/-- A word ends where the characters of words end. -/
theorem eq_of_word_append {first second rest behind : List Char} (isWord : IsWord first)
    (isWord' : IsWord second) (ends : Ends rest) (ends' : Ends behind)
    (same : first ++ rest = second ++ behind) : first = second ∧ rest = behind := by
  have spans := span_of_head isWord.2 ends
  have spans' := span_of_head isWord'.2 ends'
  rw [same] at spans
  exact ⟨spans.1.symm.trans spans'.1, spans.2.symm.trans spans'.2⟩

/-- A clean word tree starts with a character of a word, or with a parenthesis. -/
theorem starts {part : WordTree} (clean : part.Clean) :
    ∃ first more, part.text = first :: more ∧ (isWordCharacter first = true ∨ first = '(') := by
  cases part with
  | word text =>
      obtain ⟨some, all⟩ := clean
      obtain ⟨first, more, same⟩ := List.exists_cons_of_ne_nil some
      exact ⟨first, more, same, .inl (all first (same ▸ List.mem_cons_self))⟩
  | row parts => exact ⟨'(', textInside parts, rfl, .inr rfl⟩

/-- A parenthesis that closes a row starts no word tree. -/
theorem closing_ne {part : WordTree} (clean : part.Clean) (more rest : List Char) :
    ')' :: more ≠ part.text ++ rest := by
  intro same
  obtain ⟨first, behind, text, inWord | opens⟩ := starts clean
  · rw [text, List.cons_append] at same
    cases same
    cases inWord
  · rw [text, opens, List.cons_append] at same
    cases same

/-- A word is no row. -/
theorem word_ne_row {text : List Char} (isWord : IsWord text) (parts : List WordTree)
    (rest behind : List Char) : text ++ rest ≠ (row parts).text ++ behind := by
  intro same
  obtain ⟨first, more, rfl⟩ := List.exists_cons_of_ne_nil isWord.1
  have inWord := isWord.2 first List.mem_cons_self
  rw [WordTree.text, List.cons_append, List.cons_append] at same
  obtain ⟨rfl, -⟩ := List.cons.inj same
  cases inWord

mutual

/-- The text of a clean word tree, with what follows it, determines both. -/
theorem eq_of_text_append (part other : WordTree) (clean : part.Clean) (clean' : other.Clean)
    {rest behind : List Char} (ends : Ends rest) (ends' : Ends behind)
    (same : part.text ++ rest = other.text ++ behind) : part = other ∧ rest = behind := by
  match part, other with
  | word text, word text' =>
      have equal := eq_of_word_append clean clean' ends ends' same
      exact ⟨congrArg word (String.toList_injective equal.1), equal.2⟩
  | word text, row parts => exact absurd same (word_ne_row clean parts rest behind)
  | row parts, word text => exact absurd same.symm (word_ne_row clean' parts behind rest)
  -- The parenthesis that closes a row belongs to it, so that it may stand in front of
  -- anything.
  | row parts, row others =>
      rw [text, text, List.cons_append, List.cons_append] at same
      obtain ⟨rfl, equal⟩ :=
        eq_of_textInside_append parts others clean clean' (List.cons.inj same).2
      exact ⟨rfl, equal⟩

/-- A row ends with its parenthesis, whatever follows. -/
theorem eq_of_textInside_append (parts others : List WordTree) (clean : AllClean parts)
    (clean' : AllClean others) {rest behind : List Char}
    (same : textInside parts ++ rest = textInside others ++ behind) :
    parts = others ∧ rest = behind := by
  match parts, others with
  | [], [] => exact ⟨rfl, (List.cons.inj same).2⟩
  | [], second :: others =>
      rw [textInside, textInside, List.append_assoc] at same
      exact absurd same (closing_ne clean'.1 _ _)
  | first :: parts, [] =>
      rw [textInside, textInside, List.append_assoc] at same
      exact absurd same.symm (closing_ne clean.1 _ _)
  | first :: parts, second :: others =>
      rw [textInside, textInside, List.append_assoc, List.append_assoc] at same
      obtain ⟨rfl, later⟩ := eq_of_text_append first second clean.1 clean'.1
        (ends_textBehind parts rest) (ends_textBehind others behind) same
      obtain ⟨rfl, equal⟩ := eq_of_textBehind_append parts others clean.2 clean'.2 later
      exact ⟨rfl, equal⟩

/-- So does what stands behind the first part of a row. -/
theorem eq_of_textBehind_append (parts others : List WordTree) (clean : AllClean parts)
    (clean' : AllClean others) {rest behind : List Char}
    (same : textBehind parts ++ rest = textBehind others ++ behind) :
    parts = others ∧ rest = behind := by
  match parts, others with
  | [], [] => exact ⟨rfl, (List.cons.inj same).2⟩
  | [], second :: others => cases same
  | first :: parts, [] => cases same
  | first :: parts, second :: others =>
      rw [textBehind, textBehind, List.cons_append, List.cons_append, List.append_assoc,
        List.append_assoc] at same
      obtain ⟨rfl, later⟩ := eq_of_text_append first second clean.1 clean'.1
        (ends_textBehind parts rest) (ends_textBehind others behind) (List.cons.inj same).2
      obtain ⟨rfl, equal⟩ := eq_of_textBehind_append parts others clean.2 clean'.2 later
      exact ⟨rfl, equal⟩

end

/-- Clean word trees that are written alike are the same. -/
theorem eq_of_write_eq {part other : WordTree} (clean : part.Clean) (clean' : other.Clean)
    (same : part.write = other.write) : part = other := by
  have equal : part.text ++ [] = other.text ++ [] :=
    congrArg (· ++ []) (String.ofList_injective same)
  exact (eq_of_text_append part other clean clean' ends_nil ends_nil equal).1

end WordTree

end Lox
