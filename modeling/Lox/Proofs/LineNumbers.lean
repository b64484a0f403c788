/-
# Line numbers

Every item of a stream stands on the line on which the text ends that was read
for it: one more than the newlines from the start of the text through the last
character of its segment.  It makes no difference whether a newline was a blank
of its own or stood in a string or in a comment.  What nothing closes reaches up
to the end of the text, so its error stands on the last line, and so does the mark
of the end.  Lines never decrease along a stream.
-/

import Lox.Proofs.Seam

namespace Lox

/-- The line on which a text ends: each newline ends a line, and the first line is
line one. -/
def lineAfter (text : List Char) : Nat :=
  1 + text.count '\n'

/-- The line that an item names. -/
def StreamItem.line : StreamItem → Nat
  | .token found => found.line
  | .error _ line => line

/-- What the piece at a place stands for, on the line on which the text from the
first piece through this one ends. -/
def itemAt? (pieces : List Segment) (place : Nat) : Option StreamItem :=
  pieces[place]?.bind fun piece =>
    piece.item? (lineAfter ((pieces.take (place + 1)).flatMap Segment.text))

theorem lineAfter_append (before text : List Char) :
    lineAfter (before ++ text) = lineAfter before + text.count '\n' := by
  rw [lineAfter, List.count_append, ← Nat.add_assoc, lineAfter]

/-- The item of a segment stands on the line on which the segment ends. -/
theorem Segment.line_of_item? {segment : Segment} {line : Nat} {item : StreamItem}
    (found : segment.item? line = some item) : item.line = line := by
  unfold Segment.item? at found
  split at found
  · cases found
  · cases found
    rfl
  · cases found
    rfl

/-! ## Each item on its line -/

/-- The stream of pieces behind a text has their items, each on the line on which
the text through its piece ends, and then the mark of the end. -/
theorem streamFrom_lineAfter (before : List Char) (pieces : List Segment) :
    streamFrom (lineAfter before) pieces =
      ((List.range pieces.length).filterMap fun place => pieces[place]?.bind fun piece =>
        piece.item? (lineAfter (before ++ (pieces.take (place + 1)).flatMap Segment.text))) ++
      [.token (.atEnd (lineAfter (before ++ pieces.flatMap Segment.text)))] := by
  induction pieces generalizing before with
  | nil => simp [streamFrom]
  | cons piece pieces ih =>
      have first : lineAfter before + piece.newlines = lineAfter (before ++ piece.text) :=
        (lineAfter_append before piece.text).symm
      rw [streamFrom, first, ih, List.length_cons, List.range_succ_eq_map, List.filterMap_cons,
        List.filterMap_map, List.flatMap_cons, ← List.append_assoc, ← List.append_assoc]
      -- The first place has the first piece; each other place stands for the one before it.
      have others (place : Nat) :
          before ++ ((piece :: pieces).take (place + 1 + 1)).flatMap Segment.text =
            before ++ piece.text ++ (pieces.take (place + 1)).flatMap Segment.text := by
        rw [List.take_succ_cons, List.flatMap_cons, List.append_assoc]
      simp only [Function.comp_def, Nat.succ_eq_add_one, others, List.getElem?_cons_succ]
      simp only [List.getElem?_cons_zero, Option.bind_some, Nat.zero_add, List.take_succ_cons,
        List.take_zero, List.flatMap_cons, List.flatMap_nil, List.append_nil]
      cases piece.item? (lineAfter (before ++ piece.text)) with
      | none => rfl
      | some item => rfl

theorem scan_eq_items (source : String) :
    scan source = (List.range (segments source.toList).length).filterMap
      (itemAt? (segments source.toList)) ++ [.token (.atEnd (lineAfter source.toList))] := by
  have whole := streamFrom_lineAfter [] (segments source.toList)
  rw [List.nil_append, flatMap_text_segments] at whole
  exact whole

/-! ## What nothing closes -/

/-- Nothing follows a lexeme that a longer text could still close. -/
theorem Lexeme.rest_eq_nil {kind : SegmentKind} {text rest : List Char}
    (lexeme : Lexeme kind text rest) (isOpen : kind.IsOpen) : rest = [] := by
  cases lexeme with
  | unterminatedString => rfl
  | unterminatedComment => rfl
  | _ => rcases isOpen with same | same <;> cases same

/-- The error of what nothing closes stands on the last line of the text. -/
theorem Segmentation.line_of_open {text : List Char} {pieces : List Segment}
    (segmentation : Segmentation text pieces) {fault : LexicalFault} {start line : Nat}
    (member : .error fault line ∈ streamFrom start pieces)
    (isOpen : (SegmentKind.faulty fault).IsOpen) : line = start + text.count '\n' := by
  induction segmentation generalizing start with
  | nil => cases List.mem_singleton.1 member
  | @lexeme kind text rest pieces lexeme _ others ih =>
      rw [List.count_append, ← Nat.add_assoc]
      rcases List.mem_append.1 member with here | later
      · cases kind with
        | blank => cases here
        | token kind => cases List.mem_singleton.1 here
        | faulty found =>
            cases List.mem_singleton.1 here
            rw [lexeme.rest_eq_nil isOpen]
            rfl
      · exact ih later
  | @unexpected character rest pieces _ _ ih =>
      rw [← List.singleton_append, List.count_append, ← Nat.add_assoc]
      rcases List.mem_append.1 member with here | later
      · cases List.mem_singleton.1 here
        rcases isOpen with same | same <;> cases same
      · exact ih later

/-! ## Lines never decrease -/

theorem le_line_of_mem_streamFrom {start : Nat} {pieces : List Segment} {item : StreamItem}
    (member : item ∈ streamFrom start pieces) : start ≤ item.line := by
  induction pieces generalizing start with
  | nil =>
      rw [List.mem_singleton.1 member]
      exact Nat.le_refl start
  | cons piece pieces ih =>
      rcases List.mem_append.1 member with here | later
      · rw [Segment.line_of_item? (Option.mem_toList.1 here)]
        exact Nat.le_add_right start piece.newlines
      · exact (Nat.le_add_right start piece.newlines).trans (ih later)

theorem pairwise_line_streamFrom (start : Nat) (pieces : List Segment) :
    ((streamFrom start pieces).map StreamItem.line).Pairwise (· ≤ ·) := by
  induction pieces generalizing start with
  | nil => exact List.pairwise_singleton _ _
  | cons piece pieces ih =>
      rw [streamFrom]
      cases found : piece.item? (start + piece.newlines) with
      | none => exact ih _
      | some item =>
          refine List.pairwise_cons.2 ⟨?_, ih _⟩
          rw [List.forall_mem_map, Segment.line_of_item? found]
          exact fun _ later => le_line_of_mem_streamFrom later

/-- Line numbers are exact.  The items of a stream are those of the pieces of the
text, which are its only segmentation, each on the line on which the text through
its piece ends; the mark of the end stands on the last line of the text, and so
does the error of a string or comment that nothing closes; and lines never
decrease. -/
theorem scan_lines_exact (source : String) :
    (∃ pieces, (∀ others, Segmentation source.toList others ↔ others = pieces) ∧
      scan source = (List.range pieces.length).filterMap (itemAt? pieces) ++
        [.token (.atEnd (lineAfter source.toList))]) ∧
      (∀ fault line, .error fault line ∈ scan source → (SegmentKind.faulty fault).IsOpen →
        line = lineAfter source.toList) ∧
      ((scan source).map StreamItem.line).Pairwise (· ≤ ·) := by
  have segmentation := segmentation_segments source.toList
  refine ⟨⟨segments source.toList, fun others => ⟨Segmentation.eq_segments, ?_⟩,
    scan_eq_items source⟩, fun fault line member => segmentation.line_of_open member,
    pairwise_line_streamFrom 1 _⟩
  rintro rfl
  exact segmentation

/-- Newlines in a string, in a comment and in between all count. -/
example : (scan "\"a\nb\" /*\n*/ x // y\n\"z\n").map StreamItem.line = [2, 3, 5, 5] := by
  decide +kernel

end Lox
