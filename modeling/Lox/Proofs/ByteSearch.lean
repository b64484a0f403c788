/-
# Looking for characters among bytes

A row of characters that are one byte each stands among the bytes of a text only where
it stands in the text: no such row begins, goes on or ends inside another character.  So
a search that finds the first place among the bytes finds the first place in the text.
-/

import Mathlib.Tactic.ByContra
import Lox.Proofs.Boundaries

namespace Lox.Text

open String (utf8EncodeChar)

/-- Small characters whose bytes start the bytes of a text start the text. -/
theorem prefix_of_bytesOf {row text : List Char} (small : ∀ character ∈ row, IsSmall character)
    (starts : bytesOf row <+: bytesOf text) : row <+: text := by
  induction row generalizing text with
  | nil => exact List.nil_prefix
  | cons character row ih =>
      obtain ⟨single, small⟩ := List.forall_mem_cons.1 small
      rw [bytesOf_cons, utf8EncodeChar_of_small single, List.singleton_append] at starts
      cases text with
      | nil => cases List.prefix_nil.1 starts
      | cons first text =>
          have same : first = character := by
            obtain ⟨byte, more, encoded⟩ := List.exists_cons_of_ne_nil
              (String.utf8EncodeChar_ne_nil (c := first))
            rw [bytesOf_cons, encoded, List.cons_append, List.cons_prefix_cons] at starts
            exact eq_of_toUInt8_mem single (by rw [encoded, starts.1]; exact List.mem_cons_self)
          rw [bytesOf_cons, same, utf8EncodeChar_of_small single, List.singleton_append,
            List.cons_prefix_cons] at starts
          rw [same, List.cons_prefix_cons]
          exact ⟨rfl, ih small starts.2⟩

/-- Small characters are found among the bytes of a text only where they are in it. -/
theorem exists_of_prefix_drop {first : Char} {row text : List Char}
    (small : ∀ character ∈ first :: row, IsSmall character) {place : Nat}
    (found : bytesOf (first :: row) <+: (bytesOf text).drop place) :
    ∃ front, front ++ first :: row <+: text ∧ place = (bytesOf front).length := by
  have single := small first List.mem_cons_self
  induction text generalizing place with
  | nil =>
      have none : (bytesOf []).drop place = [] := List.drop_nil
      rw [none, List.prefix_nil, bytesOf_cons, utf8EncodeChar_of_small single] at found
      cases found
  | cons character text ih =>
      by_cases behind : (utf8EncodeChar character).length ≤ place
      · obtain ⟨further, rfl⟩ := Nat.exists_eq_add_of_le behind
        rw [bytesOf_cons character, List.drop_length_add_append] at found
        obtain ⟨front, inside, rfl⟩ := ih found
        refine ⟨character :: front, List.cons_prefix_cons.2 ⟨rfl, inside⟩, ?_⟩
        rw [bytesOf_cons, List.length_append]
      · -- The first byte is one of this character, which then is the first of the row.
        have here := Nat.lt_of_not_le behind
        have starts := found
        rw [bytesOf_cons, bytesOf_cons, utf8EncodeChar_of_small single, List.singleton_append,
          List.drop_append_of_le_length (Nat.le_of_lt here), List.drop_eq_getElem_cons here,
          List.cons_append, List.cons_prefix_cons] at starts
        have same : character = first :=
          eq_of_toUInt8_mem single (starts.1 ▸ List.getElem_mem here)
        rw [same, utf8EncodeChar_of_small single, List.length_singleton, Nat.lt_one_iff] at here
        rw [here, List.drop_zero] at found
        exact ⟨[], prefix_of_bytesOf small found, here⟩

namespace ByteSearch

variable {search : ByteSearch}

/-- A byte is found behind others. -/
theorem FindsFirst.byte?_append (finds : search.FindsFirst) {byte : UInt8}
    {front rest : List UInt8} (absent : byte ∉ front) :
    search.byte? byte (front ++ byte :: rest) = some front.length := by
  rw [finds.byte?_eq_some_iff]
  refine ⟨by simp, fun earlier inside found => absent ?_⟩
  rw [List.getElem?_append_left inside] at found
  exact List.mem_of_getElem? found

theorem FindsFirst.byte?_eq_none (finds : search.FindsFirst) {byte : UInt8} {bytes : List UInt8}
    (absent : byte ∉ bytes) : search.byte? byte bytes = none := by
  rw [Option.eq_none_iff_forall_ne_some]
  intro place found
  exact absent (List.mem_of_getElem? ((finds.byte?_eq_some_iff _ _ _).1 found).1)

/-- A row of small characters is found where it first is in the text. -/
theorem FindsFirst.row?_append (finds : search.FindsFirst) {first : Char}
    {row front rest : List Char}
    (small : ∀ character ∈ first :: row, IsSmall character)
    (earliest : ∀ earlier, earlier ++ first :: row <+: front ++ first :: row ++ rest →
      front <+: earlier) :
    search.row? (bytesOf (first :: row)) (bytesOf (front ++ first :: row ++ rest)) =
      some (bytesOf front).length := by
  rw [finds.row?_eq_some_iff]
  refine ⟨?_, fun place inFront found => ?_⟩
  · rw [List.append_assoc, bytesOf_append, List.drop_left, bytesOf_append]
    exact List.prefix_append _ _
  · obtain ⟨earlier, inside, rfl⟩ := exists_of_prefix_drop small found
    exact Nat.not_lt.2 (length_bytesOf_le (earliest earlier inside)) inFront

theorem FindsFirst.row?_eq_none (finds : search.FindsFirst) {first : Char} {row text : List Char}
    (small : ∀ character ∈ first :: row, IsSmall character) (absent : ¬ first :: row <:+: text) :
    search.row? (bytesOf (first :: row)) (bytesOf text) = none := by
  rw [Option.eq_none_iff_forall_ne_some]
  intro place found
  obtain ⟨front, ⟨rest, same⟩, -⟩ :=
    exists_of_prefix_drop small ((finds.row?_eq_some_iff _ _ _).1 found).1
  exact absent ⟨front, rest, same⟩

/-- Trying one place after the other finds the first one. -/
theorem findsFirst_inOrder : inOrder.FindsFirst where
  byte?_eq_some_iff byte bytes place := by
    refine List.idxOf?_eq_some_iff.trans ⟨?_, ?_⟩
    · rintro ⟨inside, same, earlier⟩
      refine ⟨List.getElem?_eq_some_iff.2 ⟨inside, same⟩, fun other inFront found => ?_⟩
      obtain ⟨_, same'⟩ := List.getElem?_eq_some_iff.1 found
      exact earlier other inFront same'
    · rintro ⟨found, earlier⟩
      obtain ⟨inside, same⟩ := List.getElem?_eq_some_iff.1 found
      refine ⟨inside, same, fun other inFront same' => earlier other inFront ?_⟩
      exact List.getElem?_eq_some_iff.2 ⟨_, same'⟩
  count_eq _ _ := rfl
  row?_eq_some_iff row bytes place := by
    -- Only the row of no bytes is found behind the end, and it is found at once.
    have listed (first : IsFirstRow row bytes place) : place ∈ List.range (bytes.length + 1) := by
      rw [List.mem_range, Nat.lt_succ_iff]
      by_contra behind
      have found := first.1
      rw [List.drop_eq_nil_of_le (Nat.le_of_not_le behind), List.prefix_nil] at found
      exact first.2 0 (Nat.pos_of_ne_zero (by rintro rfl; exact behind (Nat.zero_le _)))
        (found ▸ List.nil_prefix)
    refine List.find?_range_eq_some.trans ?_
    simp only [List.isPrefixOf_iff_prefix, Bool.not_eq_true', Bool.eq_false_iff, ne_eq]
    exact ⟨fun ⟨found, _, earlier⟩ => ⟨found, earlier⟩,
      fun first => ⟨first.1, listed first, first.2⟩⟩

end ByteSearch

end Lox.Text
