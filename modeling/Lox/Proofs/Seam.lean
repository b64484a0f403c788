/-
# Texts one below the other

A newline ends every segment but a string or a comment that nothing closes.  So
the stream of two texts with a newline between them is that of the first one, in
which nothing may be left open, and then that of the second one, whose items stand
so many lines further down (`scan_newline`).
-/

import Lox.Proofs.Lines
import Lox.Proofs.Segmentation

namespace Lox

/-- The same item on another line, which depends on its line. -/
def StreamItem.relined (f : Nat → Nat) : StreamItem → StreamItem
  | .token found => .token (found.relined f)
  | .error fault line => .error fault (f line)

/-- A segment that a text further down could still close. -/
def SegmentKind.IsOpen (kind : SegmentKind) : Prop :=
  kind = .faulty .unterminatedString ∨ kind = .faulty .unterminatedComment

/-! ## A newline ends what is cut off -/

theorem span_append_stop {p : Char → Bool} {stop : Char} (stops : p stop = false)
    (text more : List Char) :
    (text ++ stop :: more).takeWhile p = text.takeWhile p ∧
      (text ++ stop :: more).dropWhile p = text.dropWhile p ++ stop :: more := by
  induction text with
  | nil => simp [stops]
  | cons character text ih =>
      cases goesOn : p character with
      | true => simp [goesOn, ih.1, ih.2]
      | false => simp [goesOn]

/-- A text in which a stop is found is not read further than up to it. -/
theorem span_append_of_dropWhile {p : Char → Bool} {text rest : List Char} {stop : Char}
    (found : text.dropWhile p = stop :: rest) (more : List Char) :
    (text ++ more).takeWhile p = text.takeWhile p ∧
      (text ++ more).dropWhile p = stop :: (rest ++ more) := by
  induction text with
  | nil => cases found
  | cons character text ih =>
      cases goesOn : p character with
      | true =>
          rw [List.dropWhile_cons_of_pos goesOn] at found
          simp [goesOn, ih found]
      | false =>
          rw [List.dropWhile_cons_of_neg (by simp [goesOn])] at found
          cases found
          simp [goesOn]

namespace Cut

/-- The same segment in front of a longer rest. -/
def followedBy (cut : Cut) (more : List Char) : Cut :=
  ⟨cut.segment, cut.rest ++ more⟩

variable {first : Char} {rest : List Char} (more : List Char)

theorem word_newline : word first (rest ++ '\n' :: more) =
    (word first rest).followedBy ('\n' :: more) := by
  have stops : isWordPart '\n' = false := by decide
  have ⟨inside, behind⟩ := span_append_stop stops rest more
  rw [word, inside, behind]
  rfl

theorem fraction?_of_ne {character : Char} (noPoint : character ≠ '.') (rest : List Char) :
    fraction? (character :: rest) = none := by
  unfold fraction?
  split
  · next same => exact absurd (List.cons.inj same).1 noPoint
  · rfl

theorem fraction?_newline (text : List Char) : fraction? (text ++ '\n' :: more) =
    (fraction? text).map fun (fraction, rest) => (fraction, rest ++ '\n' :: more) := by
  cases text with
  | nil => rfl
  | cons character text =>
      by_cases point : character = '.'
      · subst point
        cases text with
        | nil => rfl
        | cons digit text =>
            have stops : Char.isDigit '\n' = false := by decide
            have ⟨inside, behind⟩ := span_append_stop stops text more
            rw [List.cons_append, List.cons_append, fraction?, fraction?, inside, behind]
            split <;> rfl
      · rw [List.cons_append, fraction?_of_ne point, fraction?_of_ne point]
        rfl

theorem number_newline : number first (rest ++ '\n' :: more) =
    (number first rest).followedBy ('\n' :: more) := by
  have stops : Char.isDigit '\n' = false := by decide
  have ⟨inside, behind⟩ := span_append_stop stops rest more
  simp only [number, inside, behind, fraction?_newline]
  cases fraction? (rest.dropWhile Char.isDigit) <;> rfl

theorem string_newline (closed : ¬ (string rest).segment.kind.IsOpen) :
    string (rest ++ '\n' :: more) = (string rest).followedBy ('\n' :: more) := by
  unfold string at closed ⊢
  cases found : rest.dropWhile (· ≠ '"') with
  | nil =>
      simp only [found] at closed
      exact (closed (.inl rfl)).elim
  | cons quote behind =>
      have ⟨inside, later⟩ := span_append_of_dropWhile found ('\n' :: more)
      simp only [inside, later]
      rfl

/-- What holds of a newline and of what starts a text holds of what starts the text
before a newline. -/
theorem forall_head_newline {P : Char → Prop} (newline : P '\n')
    (starts : ∀ character ∈ rest.head?, P character) :
    ∀ character ∈ (rest ++ '\n' :: more).head?, P character := by
  cases rest with
  | nil => simpa using newline
  | cons first rest => exact starts

theorem slash_newline (closed : ¬ (slash rest).segment.kind.IsOpen) :
    slash (rest ++ '\n' :: more) = (slash rest).followedBy ('\n' :: more) := by
  unfold slash at closed
  split at closed
  · next rest =>
      have ⟨inside, behind⟩ :=
        @span_append_stop (fun character => decide (character ≠ '\n')) '\n' (by decide) rest more
      rw [List.cons_append, slash, slash, inside, behind]
      rfl
  · next rest =>
      split at closed
      · next inside behind found =>
          obtain ⟨body, rfl, first⟩ := of_throughCommentEnd?_eq_some found
          have whole := text_throughCommentEnd? found
          have found' := throughCommentEnd?_append first (behind ++ '\n' :: more)
          have same : body ++ '*' :: '/' :: (behind ++ '\n' :: more) = rest ++ '\n' :: more := by
            rw [← whole]
            simp
          rw [same] at found'
          simp only [List.cons_append, slash, found, found']
          rfl
      · exact (closed (.inr rfl)).elim
  · next noLine noBlock =>
      have ends : ∀ character ∈ rest.head?, ¬ (character = '/' ∨ character = '*') := by
        cases rest with
        | nil => exact forall_head_nil _
        | cons second rest =>
            rintro _ ⟨rfl⟩ (rfl | rfl)
            · exact noLine rest rfl
            · exact noBlock rest rfl
      rw [slash_alone ends, slash_alone (forall_head_newline more (by decide) ends)]
      rfl

theorem comparison_newline (alone beforeEqual : Symbol) :
    comparison first alone beforeEqual (rest ++ '\n' :: more) =
      (comparison first alone beforeEqual rest).followedBy ('\n' :: more) := by
  by_cases longer : ∃ behind, rest = '=' :: behind
  · obtain ⟨behind, rfl⟩ := longer
    rfl
  · have ends : ∀ character ∈ rest.head?, character ≠ '=' := by
      cases rest with
      | nil => exact forall_head_nil _
      | cons second rest =>
          rintro _ ⟨rfl⟩ rfl
          exact longer ⟨rest, rfl⟩
    rw [comparison_alone ends, comparison_alone (forall_head_newline more (by decide) ends)]
    rfl

end Cut

/-- What is cut off a text stays the same if a newline follows the text. -/
theorem cut_newline {first : Char} {rest : List Char}
    (closed : ¬ (cut first rest).segment.kind.IsOpen) (more : List Char) :
    cut first (rest ++ '\n' :: more) = (cut first rest).followedBy ('\n' :: more) := by
  by_cases blank : Cut.isBlank first = true
  · rw [cut, cut, if_pos blank, if_pos blank]
    rfl
  by_cases word : isWordStart first = true
  · rw [cut_word word, cut_word word, Cut.word_newline]
  by_cases digit : first.isDigit = true
  · rw [cut_number digit, cut_number digit, Cut.number_newline]
  by_cases quote : first = '"'
  · subst quote
    exact Cut.string_newline more closed
  by_cases slash : first = '/'
  · subst slash
    exact Cut.slash_newline more closed
  simp only [cut, if_neg blank, if_neg word, if_neg digit, if_neg quote, if_neg slash]
  split
  · rfl
  · exact Cut.comparison_newline more _ _
  · rfl

/-- The segments of two texts with a newline between them. -/
theorem segments_newline {text : List Char}
    (closed : ∀ piece ∈ segments text, ¬ piece.kind.IsOpen) (more : List Char) :
    segments (text ++ '\n' :: more) = segments text ++ ⟨['\n'], .blank⟩ :: segments more := by
  fun_induction segments text with
  | case1 =>
      rw [List.nil_append, segments]
      rfl
  | case2 first rest ih =>
      obtain ⟨closed, others⟩ := List.forall_mem_cons.1 closed
      rw [List.cons_append, segments, cut_newline closed]
      exact congrArg _ (ih others)

/-! ## Streams -/

theorem streamFrom_add (line lines : Nat) (pieces : List Segment) :
    streamFrom (line + lines) pieces =
      (streamFrom line pieces).map (StreamItem.relined (· + lines)) := by
  induction pieces generalizing line with
  | nil => rfl
  | cons piece pieces ih =>
      rw [streamFrom, streamFrom, Nat.add_right_comm, ih, List.map_append, Segment.item?,
        Segment.item?]
      cases piece.kind <;> rfl

theorem streamFrom_ne_nil (line : Nat) (pieces : List Segment) : streamFrom line pieces ≠ [] := by
  cases pieces with
  | nil => exact List.cons_ne_nil _ _
  | cons piece pieces =>
      exact List.append_ne_nil_of_right_ne_nil _ (streamFrom_ne_nil _ pieces)

/-- The stream of a row of segments behind another one, in place of whose end it
stands. -/
theorem streamFrom_append (line : Nat) (pieces more : List Segment) :
    streamFrom line (pieces ++ more) = (streamFrom line pieces).dropLast ++
      streamFrom (line + (pieces.flatMap Segment.text).count '\n') more := by
  induction pieces generalizing line with
  | nil => rfl
  | cons piece pieces ih =>
      rw [List.cons_append, streamFrom, streamFrom, ih,
        List.dropLast_append_of_ne_nil (streamFrom_ne_nil _ pieces), List.append_assoc,
        List.flatMap_cons, List.count_append, Segment.newlines, Nat.add_assoc]

/-- The stream of two texts with a newline between them is that of the first one
without its end, and then that of the second one, so many lines further down. -/
theorem scan_newline {first : String}
    (closed : ∀ piece ∈ segments first.toList, ¬ piece.kind.IsOpen) (second : String) :
    scan (first ++ "\n" ++ second) = (scan first).dropLast ++
      (scan second).map (StreamItem.relined (· + (1 + first.toList.count '\n'))) := by
  have whole : (first ++ "\n" ++ second).toList = first.toList ++ '\n' :: second.toList := by
    simp
  rw [scan, whole, segments_newline closed, streamFrom_append, flatMap_text_segments,
    streamFrom, scan, scan, ← streamFrom_add, ← Nat.add_assoc, Nat.add_right_comm]
  rfl

/-! ## Tokens and errors -/

theorem StreamItem.token?_relined (f : Nat → Nat) (item : StreamItem) :
    (item.relined f).token? = item.token?.map (Token.relined f) := by
  cases item <;> rfl

theorem StreamItem.error?_relined (f : Nat → Nat) (item : StreamItem) :
    (item.relined f).error? = item.error?.map (StaticError.relined f) := by
  cases item <;> rfl

theorem filterMap_token?_relined (f : Nat → Nat) (items : List StreamItem) :
    (items.map (StreamItem.relined f)).filterMap StreamItem.token? =
      (items.filterMap StreamItem.token?).map (Token.relined f) := by
  rw [List.filterMap_map, List.map_filterMap]
  exact List.filterMap_congr fun item _ => item.token?_relined f

theorem filterMap_error?_relined (f : Nat → Nat) (items : List StreamItem) :
    (items.map (StreamItem.relined f)).filterMap StreamItem.error? =
      (items.filterMap StreamItem.error?).map (StaticError.relined f) := by
  rw [List.filterMap_map, List.map_filterMap]
  exact List.filterMap_congr fun item _ => item.error?_relined f

theorem beforeEnd_relined (f : Nat → Nat) (tokens : List Token) :
    beforeEnd (tokens.map (Token.relined f)) = (beforeEnd tokens).map (Token.relined f) :=
  List.takeWhile_map ..

theorem beforeEnd_append {tokens : List Token} (noMark : ∀ token ∈ tokens, token.isEnd = false)
    (more : List Token) : beforeEnd (tokens ++ more) = tokens ++ beforeEnd more := by
  rw [beforeEnd, List.takeWhile_append_of_pos fun token member => by rw [noMark token member]; rfl,
    beforeEnd]

/-- The tokens of a stream in front of its end. -/
theorem beforeEnd_streamFrom (line : Nat) (text : List Char) :
    beforeEnd ((streamFrom line (segments text)).filterMap StreamItem.token?) =
      (streamFrom line (segments text)).dropLast.filterMap StreamItem.token? := by
  fun_induction segments text generalizing line with
  | case1 => rfl
  | case2 first rest ih =>
      rw [streamFrom, List.dropLast_append_of_ne_nil (streamFrom_ne_nil _ _), List.filterMap_append,
        List.filterMap_append, beforeEnd_append, ih]
      intro token member
      obtain ⟨item, here, isToken⟩ := List.mem_filterMap.1 member
      cases item with
      | token found =>
          cases isToken
          exact (wellSpelled_of_item? (Option.mem_toList.1 here)).isEnd_eq_false
      | error => cases isToken

/-- A faulty segment is an error of the stream. -/
theorem exists_error_of_faulty {pieces : List Segment} {piece : Segment} {fault : LexicalFault}
    (member : piece ∈ pieces) (faulty : piece.kind = .faulty fault) (line : Nat) :
    ∃ found, .error fault found ∈ streamFrom line pieces := by
  induction pieces generalizing line with
  | nil => cases member
  | cons first pieces ih =>
      rw [streamFrom]
      rcases List.mem_cons.1 member with rfl | later
      · refine ⟨line + piece.newlines, List.mem_append_left _ ?_⟩
        rw [Segment.item?, faulty]
        exact List.mem_singleton_self _
      · obtain ⟨found, listed⟩ := ih later (line + first.newlines)
        exact ⟨found, List.mem_append_right _ listed⟩

variable {first second : String}

/-- Where no error of a stream says that something is left open, nothing is. -/
theorem closed_of_scan (closed : ∀ fault line, .error fault line ∈ scan first →
    ¬ (SegmentKind.faulty fault).IsOpen) :
    ∀ piece ∈ segments first.toList, ¬ piece.kind.IsOpen := by
  intro piece member isOpen
  obtain ⟨fault, faulty⟩ : ∃ fault, piece.kind = .faulty fault := by
    rcases isOpen with same | same
    · exact ⟨_, same⟩
    · exact ⟨_, same⟩
  obtain ⟨line, listed⟩ := exists_error_of_faulty member faulty 1
  rw [faulty] at isOpen
  exact closed fault line listed isOpen

/-- In a text without lexical errors nothing is left open. -/
theorem closed_of_quiet (quiet : lexicalErrorsOf first = []) :
    ∀ piece ∈ segments first.toList, ¬ piece.kind.IsOpen := by
  refine closed_of_scan fun fault line listed _ => ?_
  have error : .lexical fault line ∈ lexicalErrorsOf first :=
    List.mem_filterMap.2 ⟨_, listed, rfl⟩
  rw [quiet] at error
  cases error

/-- The number of lines of a text: one more than its newlines. -/
def lineCount (source : String) : Nat :=
  1 + source.toList.count '\n'

/-- The stream of a text ends with the mark on its last line. -/
theorem scan_eq_dropLast_append (source : String) :
    scan source = (scan source).dropLast ++ [.token (.atEnd (lineCount source))] := by
  have whole := streamFrom_append 1 (segments source.toList) []
  rw [List.append_nil, flatMap_text_segments] at whole
  exact whole

/-- Texts one below the other are scanned one after the other.  If no error of the first
stream says that a string or a comment is left open, then the stream of the two texts
with a newline between them is the first stream without the mark of its end, and then
the second one, with all its items so many lines further down as the first text has
lines. -/
theorem scan_joins_at_newline {first : String}
    (closed : ∀ fault line, .error fault line ∈ scan first →
      fault ≠ .unterminatedString ∧ fault ≠ .unterminatedComment) (second : String) :
    ∃ items, scan first = items ++ [.token (.atEnd (lineCount first))] ∧
      scan (first ++ "\n" ++ second) =
        items ++ (scan second).map (StreamItem.relined (· + lineCount first)) := by
  have inner : ∀ piece ∈ segments first.toList, ¬ piece.kind.IsOpen := by
    refine closed_of_scan fun fault line listed isOpen => ?_
    obtain ⟨noString, noComment⟩ := closed fault line listed
    rcases isOpen with same | same
    · exact noString (SegmentKind.faulty.inj same)
    · exact noComment (SegmentKind.faulty.inj same)
  exact ⟨(scan first).dropLast, scan_eq_dropLast_append first, scan_newline inner second⟩

/-- A slash above a slash: the two stay apart, the unexpected character above them is
reported as before, and the string below is still left open. -/
theorem slashAboveSlash_joins_at_newline :
    (∀ fault line, .error fault line ∈ scan "a@ /" →
      fault ≠ .unterminatedString ∧ fault ≠ .unterminatedComment) ∧
    ∃ items, scan "a@ /" = items ++ [.token (.atEnd (lineCount "a@ /"))] ∧
      scan ("a@ /" ++ "\n" ++ "/ \"b") =
        items ++ (scan "/ \"b").map (StreamItem.relined (· + lineCount "a@ /")) := by
  have above : scan "a@ /" = [.token ⟨.identifier, "a", 1⟩, .error (.unexpectedCharacter '@') 1,
      .token ⟨.symbol .slash, "/", 1⟩, .token (.atEnd 1)] := by
    decide +kernel
  have closed : ∀ fault line, .error fault line ∈ scan "a@ /" →
      fault ≠ .unterminatedString ∧ fault ≠ .unterminatedComment := by
    intro fault line listed
    simp only [above, List.mem_cons, reduceCtorEq, StreamItem.error.injEq, List.not_mem_nil,
      false_or, or_false] at listed
    rw [listed.1]
    decide
  exact ⟨closed, scan_joins_at_newline closed "/ \"b"⟩

/-- The tokens of two texts with a newline between them. -/
theorem tokens_newline (quiet : lexicalErrorsOf first = []) (second : String) :
    beforeEnd (tokensOf (first ++ "\n" ++ second)) = beforeEnd (tokensOf first) ++
      (beforeEnd (tokensOf second)).map (Token.relined (· + lineCount first)) := by
  rw [tokensOf, tokensOf, scan_newline (closed_of_quiet quiet), List.filterMap_append,
    filterMap_token?_relined, scan, ← beforeEnd_streamFrom, beforeEnd_append, beforeEnd_relined]
  · rfl
  · intro token member
    simpa using of_mem_takeWhile member

/-- Below a text without lexical errors there are those of the text below. -/
theorem lexicalErrorsOf_newline (quiet : lexicalErrorsOf first = []) (second : String) :
    lexicalErrorsOf (first ++ "\n" ++ second) =
      (lexicalErrorsOf second).map (StaticError.relined (· + lineCount first)) := by
  have none : (scan first).dropLast.filterMap StreamItem.error? = [] :=
    List.eq_nil_of_sublist_nil (quiet ▸ (List.dropLast_sublist _).filterMap StreamItem.error?)
  rw [lexicalErrorsOf, scan_newline (closed_of_quiet quiet), List.filterMap_append, none,
    List.nil_append, filterMap_error?_relined]
  rfl

/-! ## Blank lines -/

/-- A text of nothing but newlines. -/
def blankLines (count : Nat) : String :=
  String.ofList (List.replicate count '\n')

/-- Below blank lines a text has the same stream, so many lines further down. -/
theorem scan_blankLines (count : Nat) (source : String) :
    scan (blankLines count ++ source) = (scan source).map (StreamItem.relined (· + count)) := by
  have skipped (line : Nat) (text : List Char) :
      streamFrom line (segments (List.replicate count '\n' ++ text)) =
        streamFrom (line + count) (segments text) := by
    induction count generalizing line with
    | zero => rfl
    | succ count ih =>
        have single : cut '\n' (List.replicate count '\n' ++ text) =
            ⟨⟨['\n'], .blank⟩, List.replicate count '\n' ++ text⟩ := rfl
        rw [List.replicate_succ, List.cons_append, segments, single, streamFrom, ih,
          ← Nat.add_assoc, Nat.add_right_comm]
        rfl
  rw [scan, blankLines, String.toList_append, String.toList_ofList, skipped, streamFrom_add]
  rfl

theorem tokens_blankLines (count : Nat) (source : String) :
    beforeEnd (tokensOf (blankLines count ++ source)) =
      (beforeEnd (tokensOf source)).map (Token.relined (· + count)) := by
  rw [tokensOf, scan_blankLines, filterMap_token?_relined, beforeEnd_relined]
  rfl

theorem lexicalErrorsOf_blankLines (count : Nat) (source : String) :
    lexicalErrorsOf (blankLines count ++ source) =
      (lexicalErrorsOf source).map (StaticError.relined (· + count)) := by
  rw [lexicalErrorsOf, scan_blankLines, filterMap_error?_relined]
  rfl

end Lox
