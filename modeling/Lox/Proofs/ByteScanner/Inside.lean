/-
# Reading stays within the text

A scanner that stands in front of some characters has still to give the stream of these
characters; behind the mark at the end it has nothing to give.  A round takes the item of
the next segment, if the segment has one, off what is still to be given, and so does a
call with the next item.  From the first call on nothing is breached on the way: whatever
is read is there, and whatever is taken out of the text lies between two boundaries.
-/

import Lox.Proofs.ByteScanner.Lexemes

namespace Lox.ByteScanner

open Text (bytesOf)

variable {search : Text.ByteSearch} {source : String} {scanner later : ByteScanner}
  {before rest : List Char} {first : Char} {items : List StreamItem}

/-! ## One round -/

/-- A text lies between two places of a source, and both are boundaries. -/
structure IsPiece (source : String) (first last : Nat) (text : String) : Prop where
  starts : Text.IsBoundary source first
  ends : Text.IsBoundary source last
  ordered : first ≤ last
  inside : last ≤ source.utf8ByteSize
  taken : Text.piece? source first last = some text

/-- A round has read a lexeme that starts where the round started.  The lexeme lies
between boundaries, and if it is a string then so does what is between its quotes. -/
structure ReadsLexeme (source : String) (scanner : ByteScanner) (item? : Option StreamItem)
    (later : ByteScanner) : Prop where
  start : later.start = scanner.place
  forward : scanner.place < later.place
  lexeme : ∃ text, IsPiece source later.start later.place text ∧
    ∀ token, item? = some (.token token) → token.lexeme = text
  inside : ∀ token text, item? = some (.token token) → token.kind = .string text →
    IsPiece source (later.start + 1) (later.place - 1) text

/-- Whatever can be taken out of a text is a piece of it. -/
theorem isPiece_of_piece {first last : Nat} {text : String}
    (taken : piece source first last = .ok text) : IsPiece source first last text := by
  unfold piece at taken
  split at taken
  · next found =>
      cases taken
      obtain ⟨starts, ends, ordered⟩ := Text.of_piece?_eq_some found
      exact ⟨starts, ends, ordered, ends.le_utf8ByteSize, found⟩
  · cases taken

/-- A token has the text of its segment. -/
theorem lexeme_of_item? {segment : Segment} {line : Nat} {token : Token}
    (found : segment.item? line = some (.token token)) :
    token.lexeme = String.ofList segment.text := by
  rw [Segment.item?] at found
  split at found <;> cases found
  rfl

/-- In front of a character a round reads the segment that is cut off there. -/
theorem round_of_cons (finds : search.FindsFirst) (whole : source.toList = before ++ first :: rest)
    (place : scanner.place = (bytesOf before).length) :
    ∃ later, scanner.round search source = .ok ((cut first rest).segment.item? later.line, later) ∧
      HasRead source later before (cut first rest).segment.text (cut first rest).rest ∧
      later.line = scanner.line + (cut first rest).segment.newlines := by
  have started : HasRead source { scanner with start := scanner.place, pending := none } before []
      (first :: rest) := ⟨by rw [whole, List.append_nil], place, rfl⟩
  have more : scanner.place ≠ source.utf8ByteSize := by
    have some := Text.length_bytesOf_pos (List.cons_ne_nil first rest)
    rw [started.remains.size]
    exact (Nat.lt_add_of_pos_right some).ne
  obtain ⟨error?, later, read, ended⟩ := cutsOff_lexeme finds rfl started
  rw [round, if_neg more]
  dsimp only
  rw [read, ok_bind]
  dsimp only
  rw [ended.error, ended.pending]
  generalize cut first rest = cut at ended ⊢
  obtain ⟨⟨text, kind⟩, behind⟩ := cut
  cases kind with
  | blank => exact ⟨later, rfl, ended.hasRead, ended.line⟩
  | faulty fault => exact ⟨later, rfl, ended.hasRead, ended.line⟩
  | token kind =>
      dsimp only [Segment.error?, SegmentKind.token?]
      rw [ended.hasRead.piece, ok_bind]
      exact ⟨{ later with pending := none }, rfl, ended.hasRead.congr rfl rfl, ended.line⟩

/-- What a round reads in front of a character lies between boundaries. -/
theorem readsLexeme_of_hasRead (place : scanner.place = (bytesOf before).length)
    (read : HasRead source later before (cut first rest).segment.text (cut first rest).rest) :
    ReadsLexeme source scanner ((cut first rest).segment.item? later.line) later where
  start := read.start.trans place.symm
  forward := by
    rw [read.place, read.start, place]
    exact Nat.lt_add_of_pos_right (Text.length_bytesOf_pos (text_cut_ne_nil first rest))
  lexeme := ⟨_, isPiece_of_piece read.piece, fun _ => lexeme_of_item?⟩
  inside := by
    intro token text found isString
    have spelled := wellSpelled_of_item? found
    rw [Token.WellSpelled, isString, lexeme_of_item? found, String.toList_ofList] at spelled
    generalize (cut first rest).segment.text = lexeme at read spelled
    cases spelled with
    | string => exact isPiece_of_piece (read.inner (by decide) (by decide))

/-! ## What is still to be given -/

/-- A scanner has still to give the stream of what it stands in front of, or nothing
behind the mark at the end. -/
inductive Gives (source : String) (scanner : ByteScanner) : List StreamItem → Prop where
  | ahead {before after : List Char} (whole : source.toList = before ++ after)
      (place : scanner.place = (bytesOf before).length) :
      Gives source scanner (streamFrom scanner.line (segments after))
  | ended (behind : scanner.place = source.utf8ByteSize + 1) : Gives source scanner []

theorem gives_initial (source : String) : Gives source initial (scan source) :=
  .ahead (List.nil_append _).symm rfl

/-- All characters together have as many bytes as the text. -/
theorem length_bytesOf_all (whole : source.toList = before ++ []) :
    (bytesOf before).length = source.utf8ByteSize := by
  rw [← Text.length_bytes, Text.bytes_eq, whole, List.append_nil]

/-- Behind the text only the mark at the end has been given. -/
theorem Gives.eq_of_lt (gives : Gives source scanner items)
    (behind : source.utf8ByteSize < scanner.place) :
    items = [] ∧ scanner.place = source.utf8ByteSize + 1 := by
  cases gives with
  | ahead whole place =>
      have inside := (Text.isBoundary_of_toList whole).le_utf8ByteSize
      exact (Nat.not_lt.2 inside (place ▸ behind)).elim
  | ended behind => exact ⟨rfl, behind⟩

theorem round_of_end (ends : scanner.place = source.utf8ByteSize) :
    scanner.round search source = .ok (some (.token (.atEnd scanner.line)),
      { scanner with place := source.utf8ByteSize + 1 }) := by
  rw [round, if_pos ends, ends]

theorem next_of_lt (behind : source.utf8ByteSize < scanner.place) :
    scanner.next search source = .ok (none, scanner) := by
  rw [next, if_neg (Nat.not_le.2 behind)]

/-- A round takes its item, if it has one, off what is still to be given. -/
theorem Gives.round (finds : search.FindsFirst) (gives : Gives source scanner items)
    (goesOn : scanner.place ≤ source.utf8ByteSize) :
    ∃ item? later others, scanner.round search source = .ok (item?, later) ∧
      items = item?.toList ++ others ∧ Gives source later others := by
  cases gives with
  | @ahead before after whole place =>
      cases after with
      | nil =>
          rw [segments]
          exact ⟨_, _, [], round_of_end (place.trans (length_bytesOf_all whole)), rfl, .ended rfl⟩
      | cons first rest =>
          obtain ⟨later, rounds, read, line⟩ := round_of_cons finds whole place
          rw [segments, streamFrom, ← line]
          exact ⟨_, later, _, rounds, rfl, .ahead read.whole
            (by rw [read.place, read.start, Text.bytesOf_append, List.length_append])⟩
  | ended behind =>
      rw [behind] at goesOn
      exact (Nat.not_succ_le_self _ goesOn).elim

/-- As long as the text goes on a round reads a lexeme. -/
theorem Gives.readsLexeme (finds : search.FindsFirst) (gives : Gives source scanner items)
    (goesOn : scanner.place < source.utf8ByteSize) :
    ∃ item? later, scanner.round search source = .ok (item?, later) ∧
      ReadsLexeme source scanner item? later := by
  cases gives with
  | @ahead before after whole place =>
      cases after with
      | nil => exact (Nat.ne_of_lt goesOn (place.trans (length_bytesOf_all whole))).elim
      | cons first rest =>
          obtain ⟨later, rounds, read, -⟩ := round_of_cons finds whole place
          exact ⟨_, later, rounds, readsLexeme_of_hasRead place read⟩
  | ended behind =>
      rw [behind] at goesOn
      exact (Nat.not_succ_le_self _ (Nat.le_of_lt goesOn)).elim

/-- A call gives the next item of what is still to be given. -/
theorem Gives.next (finds : search.FindsFirst) (gives : Gives source scanner items) :
    ∃ later, scanner.next search source = .ok (items.head?, later) ∧
      Gives source later items.tail := by
  fun_induction ByteScanner.next search source scanner generalizing items with
  | case1 scanner goesOn item later comesTo =>
      obtain ⟨_, _, others, rounds, rfl, gives⟩ := gives.round finds goesOn
      rw [comesTo] at rounds
      cases rounds
      exact ⟨later, rfl, gives⟩
  | case2 scanner goesOn later comesTo ih =>
      obtain ⟨_, _, others, rounds, rfl, gives⟩ := gives.round finds goesOn
      rw [comesTo] at rounds
      cases rounds
      exact ih gives
  | case3 scanner goesOn breach breached =>
      obtain ⟨_, _, _, rounds, -⟩ := gives.round finds goesOn
      rw [breached] at rounds
      cases rounds
  | case4 scanner ended =>
      obtain ⟨rfl, -⟩ := gives.eq_of_lt (Nat.lt_of_not_le ended)
      exact ⟨scanner, rfl, gives⟩

/-! ## Scanners that are reached -/

theorem Reached.gives (finds : search.FindsFirst) (reached : Reached search source scanner) :
    ∃ items, Gives source scanner items := by
  induction reached with
  | initial => exact ⟨_, gives_initial source⟩
  | round _ goesOn comesTo ih =>
      obtain ⟨items, gives⟩ := ih
      obtain ⟨_, _, others, rounds, -, gives⟩ := gives.round finds goesOn
      rw [comesTo] at rounds
      cases rounds
      exact ⟨others, gives⟩

/-- The rounds of a call reach the scanner that the call leaves. -/
theorem Reached.next {item? : Option StreamItem} (reached : Reached search source scanner)
    (answers : scanner.next search source = .ok (item?, later)) : Reached search source later := by
  fun_induction ByteScanner.next search source scanner with
  | case1 _ goesOn _ _ comesTo =>
      cases answers
      exact reached.round goesOn comesTo
  | case2 _ goesOn _ comesTo ih => exact ih (reached.round goesOn comesTo) answers
  | case3 => cases answers
  | case4 =>
      cases answers
      exact reached

/-- Calls leave all of the stream but the items that they have given. -/
theorem afterCalls_eq_ok (finds : search.FindsFirst) (source : String) (calls : Nat) :
    ∃ scanner, afterCalls search source calls = .ok scanner ∧
      Reached search source scanner ∧ Gives source scanner ((scan source).drop calls) := by
  induction calls with
  | zero => exact ⟨initial, rfl, .initial, gives_initial source⟩
  | succ calls ih =>
      obtain ⟨scanner, called, reached, gives⟩ := ih
      obtain ⟨later, answers, gives⟩ := gives.next finds
      rw [List.tail_drop] at gives
      refine ⟨later, ?_, reached.next answers, gives⟩
      rw [afterCalls, called, ok_bind, answers]
      rfl

/-- The answers are the items of the stream, and then there are no more. -/
theorem answer?_eq_ok (finds : search.FindsFirst) (source : String) (call : Nat) :
    answer? search source call = .ok (scan source)[call]? := by
  obtain ⟨scanner, called, -, gives⟩ := afterCalls_eq_ok finds source call
  obtain ⟨later, answers, -⟩ := gives.next finds
  rw [answer?, called, ok_bind, answers, List.head?_drop]
  rfl

/-- Reading never leaves the text and never splits a character.  Nothing is breached,
with whatever scanner a round starts.  As long as the text goes on the round reads a lexeme
that starts where the round started, has at least one byte and ends within the text, at
boundaries on both sides, and so does what is between the quotes of a string.  At the end
of the text it gives the mark and goes on once, by one; from there on nothing is read and
nothing changes.  Any number of calls comes to such a scanner, and the calls give the items
of the stream, one after the other, and then nothing any more. -/
theorem reading_stays_in_text (finds : search.FindsFirst) (source : String) :
    (∀ scanner, Reached search source scanner →
      (scanner.place < source.utf8ByteSize → ∃ item? later,
        scanner.round search source = .ok (item?, later) ∧
          ReadsLexeme source scanner item? later) ∧
      (scanner.place = source.utf8ByteSize → scanner.round search source =
        .ok (some (.token (.atEnd scanner.line)),
          { scanner with place := source.utf8ByteSize + 1 })) ∧
      (source.utf8ByteSize < scanner.place → scanner.place = source.utf8ByteSize + 1 ∧
        scanner.next search source = .ok (none, scanner))) ∧
    ∀ call, (∃ scanner, afterCalls search source call = .ok scanner ∧
        Reached search source scanner) ∧
      answer? search source call = .ok (scan source)[call]? := by
  refine ⟨fun scanner reached => ?_, fun call => ⟨?_, answer?_eq_ok finds source call⟩⟩
  · obtain ⟨items, gives⟩ := reached.gives finds
    exact ⟨gives.readsLexeme finds, round_of_end,
      fun behind => ⟨(gives.eq_of_lt behind).2, next_of_lt behind⟩⟩
  · obtain ⟨scanner, called, reached, -⟩ := afterCalls_eq_ok finds source call
    exact ⟨scanner, called, reached⟩

/-- Characters of two bytes in a string, alone and in a comment that nothing closes. -/
theorem twoByteCharacters_stay_in_text : Text.ByteSearch.inOrder.FindsFirst ∧
    (∃ item? later,
      initial.round Text.ByteSearch.inOrder "\"é\nü\" ß /* ä" = .ok (item?, later) ∧
        ReadsLexeme "\"é\nü\" ß /* ä" initial item? later) ∧
    ((List.range 5).map fun call =>
        answer? Text.ByteSearch.inOrder "\"é\nü\" ß /* ä" call) =
      [.ok (some (.token ⟨.string "é\nü", "\"é\nü\"", 2⟩)),
        .ok (some (.error (.unexpectedCharacter 'ß') 2)),
        .ok (some (.error .unterminatedComment 2)), .ok (some (.token (.atEnd 2))), .ok none] := by
  obtain ⟨rounds, calls⟩ := reading_stays_in_text Text.ByteSearch.findsFirst_inOrder
    "\"é\nü\" ß /* ä"
  have scanned : scan "\"é\nü\" ß /* ä" = [.token ⟨.string "é\nü", "\"é\nü\"", 2⟩,
      .error (.unexpectedCharacter 'ß') 2, .error .unterminatedComment 2, .token (.atEnd 2)] := by
    decide +kernel
  refine ⟨Text.ByteSearch.findsFirst_inOrder, (rounds initial .initial).1 (by decide), ?_⟩
  simp only [(calls _).2, scanned]
  rfl

end Lox.ByteScanner
