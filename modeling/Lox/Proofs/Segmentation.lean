/-
# Longest match

The lexical grammar says which texts are a word, a number, a string, an operator,
a blank, a comment, or a string or comment that nothing closes (`Lexeme`).  It
says nothing of how a text is read.  A *segmentation* of a text takes lexemes off
its front, always the longest one there is, and where there is none a single
character, which is then unexpected.

Every text has exactly one segmentation, and it is the row of segments into which
the text is cut; the stream has one item for each segment that is a token or
faulty, in the same order, and the mark of the end behind them.
-/

import Mathlib.Data.List.Infix
import Mathlib.Data.List.TakeWhile
import Lox.Proofs.Spelling

namespace Lox

/-- A text is a lexeme of a kind in front of a rest.  Only what nothing closes
depends on the rest, which is then empty. -/
inductive Lexeme : SegmentKind → List Char → List Char → Prop where
  | token {kind : TokenKind} {text rest : List Char} (spelled : Spelled kind text) :
      Lexeme (.token kind) text rest
  | blank {character : Char} {rest : List Char}
      (listed : character ∈ [' ', '\r', '\t', '\n']) : Lexeme .blank [character] rest
  | lineComment {inside rest : List Char} (oneLine : '\n' ∉ inside) :
      Lexeme .blank ('/' :: '/' :: inside) rest
  | blockComment {inside rest : List Char} (first : ¬ ['*', '/'] <:+: inside) :
      Lexeme .blank ('/' :: '*' :: (inside ++ ['*', '/'])) rest
  | unterminatedString {inside : List Char} (open' : '"' ∉ inside) :
      Lexeme (.faulty .unterminatedString) ('"' :: inside) []
  | unterminatedComment {inside : List Char} (open' : ¬ ['*', '/'] <:+: inside) :
      Lexeme (.faulty .unterminatedComment) ('/' :: '*' :: inside) []

/-- No lexeme at the front of a text is longer than this part of it. -/
def IsLongest (text rest : List Char) : Prop :=
  ∀ kind other behind, other ++ behind = text ++ rest → Lexeme kind other behind →
    other.length ≤ text.length

/-- A text cut into its longest lexemes, from left to right; a character with
which no lexeme starts stands for itself. -/
inductive Segmentation : List Char → List Segment → Prop where
  | nil : Segmentation [] []
  | lexeme {kind : SegmentKind} {text rest : List Char} {pieces : List Segment}
      (lexeme : Lexeme kind text rest) (longest : IsLongest text rest)
      (others : Segmentation rest pieces) : Segmentation (text ++ rest) (⟨text, kind⟩ :: pieces)
  | unexpected {character : Char} {rest : List Char} {pieces : List Segment}
      (none : ∀ kind text behind, text ++ behind = character :: rest → ¬ Lexeme kind text behind)
      (others : Segmentation rest pieces) :
      Segmentation (character :: rest)
        (⟨[character], .faulty (.unexpectedCharacter character)⟩ :: pieces)

/-- What the pieces of a text stand for in its stream, on whatever lines. -/
inductive Yields : List Segment → List StreamItem → Prop where
  | atEnd (line : Nat) : Yields [] [.token (.atEnd line)]
  | blank {text : List Char} {pieces : List Segment} {items : List StreamItem}
      (others : Yields pieces items) : Yields (⟨text, .blank⟩ :: pieces) items
  | token {text : List Char} {kind : TokenKind} {line : Nat} {pieces : List Segment}
      {items : List StreamItem} (others : Yields pieces items) :
      Yields (⟨text, .token kind⟩ :: pieces) (.token ⟨kind, String.ofList text, line⟩ :: items)
  | faulty {text : List Char} {fault : LexicalFault} {line : Nat} {pieces : List Segment}
      {items : List StreamItem} (others : Yields pieces items) :
      Yields (⟨text, .faulty fault⟩ :: pieces) (.error fault line :: items)

namespace Cut

/-! ## Comments -/

/-- The first end of a comment is found. -/
theorem throughCommentEnd?_append {inside : List Char} (first : ¬ ['*', '/'] <:+: inside)
    (rest : List Char) : throughCommentEnd? (inside ++ '*' :: '/' :: rest) =
      some (inside ++ ['*', '/'], rest) := by
  induction inside with
  | nil => rfl
  | cons character inside ih =>
      rw [List.infix_cons_iff, not_or] at first
      rw [List.cons_append, throughCommentEnd?, ih first.2]
      · rfl
      · -- The character and the next one are no end.
        rintro behind rfl same
        cases inside with
        | nil => cases same
        | cons next inside =>
            cases same
            exact first.1 ⟨inside, rfl⟩

theorem throughCommentEnd?_eq_none {text : List Char} :
    throughCommentEnd? text = none ↔ ¬ ['*', '/'] <:+: text := by
  fun_induction throughCommentEnd? text with
  | case1 => simp
  | case2 rest => simp [List.infix_cons_iff]
  | case3 character rest other ih =>
      rw [Option.map_eq_none_iff, ih, List.infix_cons_iff, not_or]
      refine ⟨fun none => ⟨?_, none⟩, And.right⟩
      rintro ⟨behind, same⟩
      cases same
      exact other behind rfl rfl

theorem of_throughCommentEnd?_eq_some {text inside rest : List Char}
    (found : throughCommentEnd? text = some (inside, rest)) :
    ∃ body, inside = body ++ ['*', '/'] ∧ ¬ ['*', '/'] <:+: body := by
  fun_induction throughCommentEnd? text generalizing inside with
  | case1 => cases found
  | case2 rest =>
      cases found
      exact ⟨[], rfl, by simp⟩
  | case3 character behind other ih =>
      simp only [Option.map_eq_some_iff, Prod.exists, Prod.mk.injEq] at found
      obtain ⟨inner, _, found, rfl, rfl⟩ := found
      obtain ⟨body, rfl, first⟩ := ih found
      refine ⟨character :: body, rfl, ?_⟩
      rw [List.infix_cons_iff, not_or]
      refine ⟨?_, first⟩
      rintro ⟨more, same⟩
      cases same
      have whole := text_throughCommentEnd? found
      exact other _ rfl whole.symm

end Cut

theorem cut_slash (rest : List Char) : cut '/' rest = Cut.slash rest :=
  rfl

theorem cut_quote (rest : List Char) : cut '"' rest = Cut.string rest :=
  rfl

/-! ## A lexeme alone -/

/-- Nothing stands in front of the first character of the empty text. -/
theorem forall_head_nil (P : Char → Prop) : ∀ character ∈ ([] : List Char).head?, P character := by
  rintro _ ⟨⟩

theorem TokenKind.endsBefore_nil (kind : TokenKind) : kind.EndsBefore [] := by
  cases kind with
  | number value => exact ⟨forall_head_nil _, rfl⟩
  | symbol symbol => exact forall_head_nil _
  | keyword keyword => exact forall_head_nil _
  | identifier => exact forall_head_nil _
  | _ => trivial

/-- A text that is nothing but a lexeme is cut off as a whole, so what kind of
lexeme a text is depends on the text alone. -/
theorem Lexeme.cut_alone {kind : SegmentKind} {text rest : List Char}
    (lexeme : Lexeme kind text rest) :
    ∃ first more, text = first :: more ∧ cut first more = ⟨⟨text, kind⟩, []⟩ := by
  cases lexeme with
  | token spelled =>
      obtain ⟨first, more, same, single⟩ := cut_of_spelled spelled (TokenKind.endsBefore_nil _)
      rw [List.append_nil] at single
      exact ⟨first, more, same, single⟩
  | @blank character _ listed =>
      refine ⟨character, [], rfl, ?_⟩
      have isBlank : Cut.isBlank character = true := by
        simpa [Cut.isBlank, or_assoc] using listed
      rw [cut, if_pos isBlank]
  | lineComment oneLine =>
      refine ⟨'/', _, rfl, ?_⟩
      have spans := @span_of_head _ _ [] (forall_ne_of_not_mem oneLine) (forall_head_nil _)
      rw [List.append_nil] at spans
      rw [cut_slash, Cut.slash, spans.1, spans.2]
  | blockComment first =>
      refine ⟨'/', _, rfl, ?_⟩
      simp only [cut_slash, Cut.slash, Cut.throughCommentEnd?_append first]
  | unterminatedString open' =>
      refine ⟨'"', _, rfl, ?_⟩
      have spans := @span_of_head _ _ [] (forall_ne_of_not_mem open') (forall_head_nil _)
      rw [List.append_nil] at spans
      simp only [cut_quote, Cut.string, spans.2]
  | unterminatedComment open' =>
      refine ⟨'/', _, rfl, ?_⟩
      simp only [cut_slash, Cut.slash, Cut.throughCommentEnd?_eq_none.2 open']

/-- One text is a lexeme of one kind only. -/
theorem Lexeme.kind_eq {kind other : SegmentKind} {text rest behind : List Char}
    (lexeme : Lexeme kind text rest) (again : Lexeme other text behind) : kind = other := by
  obtain ⟨first, more, rfl, single⟩ := lexeme.cut_alone
  obtain ⟨_, _, same, single'⟩ := again.cut_alone
  cases same
  rw [single] at single'
  exact congrArg (·.segment.kind) single'

theorem Lexeme.ne_unexpected {kind : SegmentKind} {text rest : List Char}
    (lexeme : Lexeme kind text rest) (character : Char) :
    kind ≠ .faulty (.unexpectedCharacter character) := by
  cases lexeme <;> simp

/-! ## What is cut off is the longest lexeme -/

namespace Cut

/-- What is cut off is a lexeme in front of what follows it. -/
def IsLexeme (cut : Cut) : Prop :=
  Lexeme cut.segment.kind cut.segment.text cut.rest

theorem isLexeme_number {first : Char} (starts : first.isDigit = true) (rest : List Char) :
    (number first rest).IsLexeme := by
  have spells := spells_number starts rest
  simp only [number] at spells ⊢
  split at spells
  · exact .token (spells _ rfl)
  · exact .token (spells _ rfl)

theorem isLexeme_string (rest : List Char) : (string rest).IsLexeme := by
  have spells := spells_string rest
  simp only [string] at spells ⊢
  split at spells
  · exact .token (spells _ rfl)
  · next none =>
      apply Lexeme.unterminatedString
      intro member
      simpa using List.dropWhile_eq_nil_iff.1 none '"' member

theorem isLexeme_slash (rest : List Char) : (slash rest).IsLexeme := by
  unfold slash
  split
  · next rest =>
      apply Lexeme.lineComment
      intro member
      simpa using of_mem_takeWhile member
  · split
    · next found =>
        obtain ⟨body, rfl, first⟩ := of_throughCommentEnd?_eq_some found
        exact .blockComment first
    · next none => exact .unterminatedComment (throughCommentEnd?_eq_none.1 none)
  · exact .token (.symbol .slash)

theorem isLexeme_comparison {first : Char} {alone beforeEqual : Symbol}
    (known : Symbol.ofComparison? first = some (alone, beforeEqual)) (rest : List Char) :
    (comparison first alone beforeEqual rest).IsLexeme := by
  have spells := spells_comparison known rest
  unfold comparison at spells ⊢
  split at spells
  · exact .token (spells _ rfl)
  · exact .token (spells _ rfl)

end Cut

/-- What is cut off a text is a lexeme, unless the first character is unexpected
whatever follows it. -/
theorem isLexeme_cut (first : Char) (rest : List Char) : (cut first rest).IsLexeme ∨
    ∀ other, cut first other = ⟨⟨[first], .faulty (.unexpectedCharacter first)⟩, other⟩ := by
  by_cases blank : Cut.isBlank first = true
  · rw [cut, if_pos blank]
    exact .inl (.blank (by simpa [Cut.isBlank, or_assoc] using blank))
  by_cases word : isWordStart first = true
  · rw [cut_word word]
    exact .inl (.token (Cut.spells_word word rest _ rfl))
  by_cases digit : first.isDigit = true
  · rw [cut_number digit]
    exact .inl (Cut.isLexeme_number digit rest)
  by_cases quote : first = '"'
  · rw [quote, cut_quote]
    exact .inl (Cut.isLexeme_string rest)
  by_cases slash : first = '/'
  · rw [slash, cut_slash]
    exact .inl (Cut.isLexeme_slash rest)
  simp only [cut, if_neg blank, if_neg word, if_neg digit, if_neg quote, if_neg slash]
  cases single : Symbol.ofCharacter? first with
  | some symbol =>
      have spelled := Spelled.symbol symbol
      rw [Cut.spelling_ofCharacter? single] at spelled
      exact .inl (.token spelled)
  | none =>
      cases double : Symbol.ofComparison? first with
      | some symbols => exact .inl (Cut.isLexeme_comparison double rest)
      | none => exact .inr fun _ => rfl

theorem length_le_takeWhile_append {p : Char → Bool} {inside : List Char}
    (all : ∀ character ∈ inside, p character = true) (rest : List Char) :
    inside.length ≤ ((inside ++ rest).takeWhile p).length := by
  rw [List.takeWhile_append_of_pos all, List.length_append]
  exact Nat.le_add_right _ _

/-- What is cut off a text is at least as long as the digits with which it
starts. -/
theorem length_le_cut_of_spells {text whole fraction : List Char}
    (spells : Decimal.Spells text whole fraction) (rest : List Char) :
    ∃ first more, text = first :: more ∧
      text.length ≤ (cut first (more ++ rest)).segment.text.length := by
  cases spells with
  | whole areDigits =>
      obtain ⟨first, more, rfl⟩ := List.exists_cons_of_ne_nil areDigits.1
      obtain ⟨isDigit, all⟩ := List.forall_mem_cons.1 areDigits.2
      refine ⟨first, more, rfl, ?_⟩
      have longer := length_le_takeWhile_append all rest
      simp only [cut_number isDigit, Cut.number]
      split
      · simp only [Cut.ofToken, List.length_cons, List.length_append]
        omega
      · simp only [Cut.ofToken, List.length_cons]
        omega
  | @fraction _ more areDigits areMore =>
      obtain ⟨first, digits, rfl⟩ := List.exists_cons_of_ne_nil areDigits.1
      obtain ⟨second, more, rfl⟩ := List.exists_cons_of_ne_nil areMore.1
      obtain ⟨isDigit, all⟩ := List.forall_mem_cons.1 areDigits.2
      obtain ⟨isDigit', all'⟩ := List.forall_mem_cons.1 areMore.2
      refine ⟨first, digits ++ '.' :: second :: more, rfl, ?_⟩
      have point : ∀ character ∈ ('.' :: second :: (more ++ rest)).head?,
          character.isDigit = false := by
        simp
      have spans := span_of_head all point
      have longer := length_le_takeWhile_append all' rest
      have found : Cut.fraction? ('.' :: second :: (more ++ rest)) =
          some (second :: (more ++ rest).takeWhile Char.isDigit,
            (more ++ rest).dropWhile Char.isDigit) := by
        rw [Cut.fraction?, if_pos isDigit']
      rw [List.append_assoc, List.cons_append, List.cons_append, cut_number isDigit, Cut.number,
        List.cons_append, spans.1, spans.2]
      simp only [found, Cut.ofToken, List.length_cons, List.length_append]
      omega

/-- What is cut off a text is at least as long as the word with which it starts. -/
theorem length_le_cut_of_word {first : Char} {more : List Char}
    (starts : isWordStart first = true)
    (parts : ∀ character ∈ more, isWordPart character = true) (rest : List Char) :
    (first :: more).length ≤ (cut first (more ++ rest)).segment.text.length := by
  rw [cut_word starts]
  exact Nat.succ_le_succ (length_le_takeWhile_append parts rest)

/-- What is cut off a text is at least as long as any lexeme at its front. -/
theorem Lexeme.length_le_cut {kind : SegmentKind} {text rest : List Char}
    (lexeme : Lexeme kind text rest) : ∃ first more, text = first :: more ∧
      text.length ≤ (cut first (more ++ rest)).segment.text.length := by
  have single (character : Char) (rest : List Char) :
      [character].length ≤ (cut character rest).segment.text.length :=
    List.length_pos_iff.2 (text_cut_ne_nil character rest)
  -- A lexeme behind which the text stops to be read is cut off in one piece.
  have whole {first : Char} {more : List Char} {segmentKind : SegmentKind}
      (same : cut first (more ++ rest) = ⟨⟨first :: more, segmentKind⟩, rest⟩) :
      (first :: more).length ≤ (cut first (more ++ rest)).segment.text.length := by
    rw [same]
  cases lexeme with
  | token spelled =>
      cases spelled with
      | symbol symbol =>
          cases symbol with
          | bangEqual => exact ⟨_, _, rfl, whole rfl⟩
          | equalEqual => exact ⟨_, _, rfl, whole rfl⟩
          | greaterEqual => exact ⟨_, _, rfl, whole rfl⟩
          | lessEqual => exact ⟨_, _, rfl, whole rfl⟩
          | _ => exact ⟨_, _, rfl, single _ _⟩
      | keyword keyword =>
          obtain ⟨first, more, same, starts, parts⟩ := spelling_word keyword
          exact ⟨first, more, same, same ▸ length_le_cut_of_word starts parts rest⟩
      | identifier starts parts _ => exact ⟨_, _, rfl, length_le_cut_of_word starts parts rest⟩
      | string open' =>
          have ends (kind : String) : (TokenKind.string kind).EndsBefore rest := trivial
          obtain ⟨first, more, same, cuts⟩ := cut_of_spelled (.string open') (ends _)
          cases same
          exact ⟨_, _, rfl, whole cuts⟩
      | number spells => exact length_le_cut_of_spells spells rest
  | blank => exact ⟨_, [], rfl, single _ _⟩
  | lineComment oneLine =>
      have long := length_le_takeWhile_append (forall_ne_of_not_mem oneLine) rest
      exact ⟨'/', _, rfl, Nat.add_le_add_right long 2⟩
  | @blockComment inside _ first =>
      have cuts : cut '/' ('*' :: (inside ++ ['*', '/']) ++ rest) =
          ⟨⟨'/' :: '*' :: (inside ++ ['*', '/']), .blank⟩, rest⟩ := by
        rw [cut_slash, List.cons_append, List.append_assoc]
        simp only [Cut.slash, List.cons_append, List.nil_append,
          Cut.throughCommentEnd?_append first]
      exact ⟨'/', _, rfl, whole cuts⟩
  | unterminatedString open' =>
      obtain ⟨first, more, same, alone⟩ := (Lexeme.unterminatedString open').cut_alone
      refine ⟨first, more, same, ?_⟩
      rw [List.append_nil, alone]
  | unterminatedComment open' =>
      obtain ⟨first, more, same, alone⟩ := (Lexeme.unterminatedComment open').cut_alone
      refine ⟨first, more, same, ?_⟩
      rw [List.append_nil, alone]

/-- What is cut off a text is its longest lexeme. -/
theorem isLongest_cut (first : Char) (rest : List Char) :
    IsLongest (cut first rest).segment.text (cut first rest).rest := by
  intro kind other behind same lexeme
  obtain ⟨_, more, rfl, long⟩ := lexeme.length_le_cut
  rw [text_cut] at same
  cases same
  exact long

/-! ## The segmentation of a text -/

/-- A text is cut into its segmentation. -/
theorem segmentation_segments (text : List Char) : Segmentation text (segments text) := by
  fun_induction segments text with
  | case1 => exact .nil
  | case2 first rest ih =>
      rcases isLexeme_cut first rest with lexeme | unexpected
      · have whole := Segmentation.lexeme lexeme (isLongest_cut first rest) ih
        rwa [text_cut] at whole
      · rw [unexpected rest] at ih ⊢
        refine .unexpected (fun kind text behind same lexeme => ?_) ih
        -- Alone, a lexeme with this character would be cut off whole.
        obtain ⟨_, more, rfl, alone⟩ := lexeme.cut_alone
        cases same
        rw [unexpected more] at alone
        exact lexeme.ne_unexpected first (congrArg (·.segment.kind) alone).symm

/-- Two longest lexemes at the front of one text are the same. -/
theorem IsLongest.unique {text rest other behind : List Char} {kind kind' : SegmentKind}
    (longest : IsLongest text rest) (lexeme : Lexeme kind text rest)
    (longest' : IsLongest other behind) (lexeme' : Lexeme kind' other behind)
    (same : text ++ rest = other ++ behind) : text = other ∧ rest = behind ∧ kind = kind' := by
  have short := longest kind' other behind same.symm lexeme'
  have short' := longest' kind text rest same lexeme
  obtain ⟨rfl, rfl⟩ := List.append_inj same (Nat.le_antisymm short' short)
  exact ⟨rfl, rfl, lexeme.kind_eq lexeme'⟩

/-- A text has no segmentation but the one into which it is cut. -/
theorem Segmentation.eq_segments {text : List Char} {pieces : List Segment}
    (segmentation : Segmentation text pieces) : pieces = segments text := by
  induction segmentation with
  | nil => rw [segments]
  | @lexeme kind text rest pieces lexeme longest _ ih =>
      obtain ⟨first, more, rfl, alone⟩ := lexeme.cut_alone
      rw [List.cons_append, segments]
      rcases isLexeme_cut first (more ++ rest) with cuts | unexpected
      · obtain ⟨same, behind, kinds⟩ := longest.unique lexeme (isLongest_cut first (more ++ rest))
          cuts (text_cut first (more ++ rest)).symm
        rw [ih, ← behind]
        exact congrArg (· :: segments rest) (congrArg₂ Segment.mk same kinds)
      · rw [unexpected more] at alone
        exact (lexeme.ne_unexpected first (congrArg (·.segment.kind) alone).symm).elim
  | @unexpected character rest pieces none _ ih =>
      rw [segments]
      rcases isLexeme_cut character rest with cuts | unexpected
      · exact (none _ _ _ (text_cut character rest) cuts).elim
      · rw [unexpected rest, ih]

/-- The pieces of a text yield its stream. -/
theorem yields_streamFrom (line : Nat) (pieces : List Segment) :
    Yields pieces (streamFrom line pieces) := by
  induction pieces generalizing line with
  | nil => exact .atEnd line
  | cons piece pieces ih =>
      obtain ⟨text, kind⟩ := piece
      cases kind with
      | blank => exact .blank (ih _)
      | token kind => exact .token (ih _)
      | faulty fault => exact .faulty (ih _)

/-- The scanner implements the lexical grammar with longest match: a text has
exactly one segmentation, whose pieces put end to end are the text, and the stream
of the text is what these pieces stand for. -/
theorem scan_longest_match (source : String) :
    ∃ pieces, (∀ others, Segmentation source.toList others ↔ others = pieces) ∧
      pieces.flatMap Segment.text = source.toList ∧ Yields pieces (scan source) := by
  refine ⟨segments source.toList, fun others => ⟨Segmentation.eq_segments, ?_⟩,
    flatMap_text_segments source.toList, yields_streamFrom 1 _⟩
  rintro rfl
  exact segmentation_segments source.toList

end Lox
