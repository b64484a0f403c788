/-
# Lexemes are scanned again

A token is spelled by its lexeme, and every token ends in front of a blank.  So the
lexemes of a text with single blanks between them are cut into the same tokens and the
blanks, and into nothing else: whatever was wrong with the text, nothing is wrong with
its lexemes.  Only lines are not kept.
-/

import Lox.Proofs.Seam
import Lox.Text.Separated

namespace Lox

/-- The lexemes of tokens with single blanks between them. -/
def joinedLexemes (tokens : List Token) : String :=
  Text.separated " " (tokens.map Token.lexeme)

/-- What a token is wherever it stands: its kind, with the value of a literal, and its
lexeme. -/
def Token.content (token : Token) : TokenKind × String :=
  (token.kind, token.lexeme)

/-- The segment of which a token is made. -/
def Token.segment (token : Token) : Segment :=
  ⟨token.lexeme.toList, .token token.kind⟩

/-- What a segment adds to the tokens of a text. -/
def Segment.content? (segment : Segment) : Option (TokenKind × String) :=
  match segment.kind with
  | .token kind => some (kind, String.ofList segment.text)
  | _ => none

/-! ## Cutting joined lexemes -/

/-- A blank between two lexemes. -/
def singleBlank : Segment :=
  ⟨[' '], .blank⟩

theorem segments_blank (rest : List Char) :
    segments (' ' :: rest) = singleBlank :: segments rest := by
  rw [segments]
  rfl

/-- What spells a token is its first segment, where it ends. -/
theorem Token.WellSpelled.segments_append {token : Token} (spelled : token.WellSpelled)
    {rest : List Char} (ends : token.kind.EndsBefore rest) :
    segments (token.lexeme.toList ++ rest) = token.segment :: segments rest := by
  obtain ⟨first, more, same, single⟩ := cut_of_spelled spelled ends
  rw [segment, same, List.cons_append, segments, single, same]

/-- Joined lexemes, at the end of a text or in front of a blank, are cut into their
tokens with blanks between them. -/
theorem segments_joinedLexemes {tokens : List Token}
    (spelled : ∀ token ∈ tokens, token.WellSpelled) {rest : List Char}
    (ends : ∀ kind : TokenKind, kind.EndsBefore rest) :
    segments ((joinedLexemes tokens).toList ++ rest) =
      (tokens.map Token.segment).intersperse singleBlank ++ segments rest := by
  induction tokens with
  | nil => rfl
  | cons token tokens ih =>
      obtain ⟨first, others⟩ := List.forall_mem_cons.1 spelled
      cases tokens with
      | nil => exact first.segments_append (ends token.kind)
      | cons second tokens =>
          have text : (joinedLexemes (token :: second :: tokens)).toList ++ rest =
              token.lexeme.toList ++
                ' ' :: ((joinedLexemes (second :: tokens)).toList ++ rest) := by
            simp [joinedLexemes, Text.separated]
          rw [text, first.segments_append (endsBefore_blank _ _), segments_blank, ih others]
          rfl

/-! ## The stream of segments -/

theorem contents_streamFrom (line : Nat) (pieces : List Segment) :
    ((streamFrom line pieces).filterMap StreamItem.token?).map Token.content =
      pieces.filterMap Segment.content? ++ [(.endOfInput, "")] := by
  induction pieces generalizing line with
  | nil => rfl
  | cons piece pieces ih =>
      rw [streamFrom, List.filterMap_append, List.map_append, ih, List.filterMap_cons,
        Segment.item?, Segment.content?]
      cases piece.kind <;> rfl

theorem errors_streamFrom {pieces : List Segment}
    (noFault : ∀ piece ∈ pieces, ∀ fault, piece.kind ≠ .faulty fault) (line : Nat) :
    (streamFrom line pieces).filterMap StreamItem.error? = [] := by
  induction pieces generalizing line with
  | nil => rfl
  | cons piece pieces ih =>
      obtain ⟨first, others⟩ := List.forall_mem_cons.1 noFault
      rw [streamFrom, List.filterMap_append, ih others, Segment.item?]
      cases same : piece.kind with
      | blank => rfl
      | token kind => rfl
      | faulty fault => exact absurd same (first fault)

theorem eq_or_mem_of_mem_intersperse {α : Type} {separator element : α} {row : List α}
    (member : element ∈ row.intersperse separator) : element = separator ∨ element ∈ row := by
  induction row with
  | nil => exact .inr member
  | cons first row ih =>
      cases row with
      | nil => exact .inr member
      | cons second row =>
          rw [List.intersperse_cons_cons] at member
          rcases List.mem_cons.1 member with rfl | member
          · exact .inr List.mem_cons_self
          rcases List.mem_cons.1 member with rfl | member
          · exact .inl rfl
          · exact (ih member).imp_right (List.mem_cons_of_mem _)

/-- Tokens with blanks between them have no faults. -/
theorem not_faulty_of_mem_intersperse {tokens : List Token} {piece : Segment}
    (member : piece ∈ (tokens.map Token.segment).intersperse singleBlank) (fault : LexicalFault) :
    piece.kind ≠ .faulty fault := by
  intro same
  rcases eq_or_mem_of_mem_intersperse member with rfl | member
  · cases same
  · obtain ⟨token, -, rfl⟩ := List.mem_map.1 member
    cases same

/-- Blanks between tokens add nothing to them. -/
theorem contents_intersperse (tokens : List Token) :
    ((tokens.map Token.segment).intersperse singleBlank).filterMap Segment.content? =
      tokens.map Token.content := by
  have single (token : Token) : token.segment.content? = some token.content := by
    rw [Segment.content?, Token.segment, Token.content, String.ofList_toList]
  have blank : singleBlank.content? = none := rfl
  induction tokens with
  | nil => rfl
  | cons token tokens ih =>
      cases tokens with
      | nil => rw [List.map_singleton, List.map_singleton, List.intersperse, List.filterMap_cons,
          single, List.filterMap_nil]
      | cons second tokens =>
          rw [List.map_cons] at ih
          simp only [List.map_cons, List.intersperse_cons_cons, List.filterMap_cons, single, blank]
            at ih ⊢
          rw [ih]

/-! ## Joined lexemes of a text -/

/-- Joined lexemes with nothing but blanks behind them scan to their tokens. -/
theorem scan_joinedLexemes {tokens : List Token} (spelled : ∀ token ∈ tokens, token.WellSpelled)
    {source : String} {rest : List Char}
    (text : source.toList = (joinedLexemes tokens).toList ++ rest)
    (blanks : rest = [] ∨ rest = [' ']) :
    lexicalErrorsOf source = [] ∧
      (tokensOf source).map Token.content = tokens.map Token.content ++ [(.endOfInput, "")] := by
  have ends (kind : TokenKind) : kind.EndsBefore rest := by
    rcases blanks with rfl | rfl
    · exact kind.endsBefore_nil
    · exact endsBefore_blank kind []
  have behind : segments rest = [] ∨ segments rest = [singleBlank] := by
    rcases blanks with rfl | rfl
    · exact .inl (by rw [segments])
    · exact .inr (by rw [segments_blank, segments])
  have pieces : segments source.toList =
      (tokens.map Token.segment).intersperse singleBlank ++ segments rest := by
    rw [text, segments_joinedLexemes spelled ends]
  constructor
  · rw [lexicalErrorsOf, scan, pieces]
    apply errors_streamFrom
    intro piece member fault
    rcases List.mem_append.1 member with member | member
    · exact not_faulty_of_mem_intersperse member fault
    · rcases behind with none | one
      · rw [none] at member
        cases member
      · rw [one, List.mem_singleton] at member
        rw [member]
        intro same
        cases same
  · have nothing : (segments rest).filterMap Segment.content? = [] := by
      rcases behind with none | one
      · rw [none]
        rfl
      · rw [one]
        rfl
    rw [tokensOf, scan, contents_streamFrom, pieces, List.filterMap_append, contents_intersperse,
      nothing, List.append_nil]

/-- The mark of the end has no lexeme: at most a blank in front of it is added. -/
theorem joinedLexemes_mark (tokens : List Token) (line : Nat) :
    ∃ rest, (rest = [] ∨ rest = [' ']) ∧
      (joinedLexemes (tokens ++ [.atEnd line])).toList = (joinedLexemes tokens).toList ++ rest := by
  induction tokens with
  | nil => exact ⟨[], .inl rfl, rfl⟩
  | cons token tokens ih =>
      cases tokens with
      | nil => exact ⟨[' '], .inr rfl, by simp [joinedLexemes, Text.separated, Token.atEnd]⟩
      | cons second tokens =>
          obtain ⟨rest, blanks, same⟩ := ih
          refine ⟨rest, blanks, ?_⟩
          simp only [joinedLexemes, List.cons_append, List.map_cons, Text.separated,
            String.toList_append, List.append_assoc] at same ⊢
          rw [same]

/-- The tokens of a text are those in front of the mark of its end, and this mark. -/
theorem tokensOf_eq (source : String) :
    tokensOf source = beforeEnd (tokensOf source) ++ [.atEnd (lineCount source)] := by
  have front : beforeEnd (tokensOf source) = (scan source).dropLast.filterMap StreamItem.token? :=
    beforeEnd_streamFrom 1 source.toList
  rw [front, tokensOf, scan_eq_dropLast_append, List.filterMap_append, List.dropLast_concat]
  rfl

/-- Lexemes scan again to what they were lexemes of.  Whatever errors a text has, its
lexemes with single blanks between them have none, and their tokens are the same ones,
with the same kinds, values and lexemes, the mark of the end included.  It makes no
difference whether the empty lexeme of that mark is joined to the others. -/
theorem lexemes_rescan (source : String) :
    (lexicalErrorsOf (joinedLexemes (beforeEnd (tokensOf source))) = [] ∧
      (tokensOf (joinedLexemes (beforeEnd (tokensOf source)))).map Token.content =
        (tokensOf source).map Token.content) ∧
    (lexicalErrorsOf (joinedLexemes (tokensOf source)) = [] ∧
      (tokensOf (joinedLexemes (tokensOf source))).map Token.content =
        (tokensOf source).map Token.content) := by
  have spelled : ∀ token ∈ beforeEnd (tokensOf source), token.WellSpelled :=
    fun token member => wellSpelled_of_mem_tokensOf member
  have contents : (tokensOf source).map Token.content =
      (beforeEnd (tokensOf source)).map Token.content ++ [(.endOfInput, "")] :=
    (congrArg (List.map Token.content) (tokensOf_eq source)).trans List.map_append
  obtain ⟨rest, blanks, text⟩ :=
    joinedLexemes_mark (beforeEnd (tokensOf source)) (lineCount source)
  rw [← tokensOf_eq] at text
  rw [contents]
  exact ⟨scan_joinedLexemes spelled (List.append_nil _).symm (.inl rfl),
    scan_joinedLexemes spelled text blanks⟩

/-- The unexpected character and the open comment are gone; the string keeps its newline
and what is no comment in it. -/
example : joinedLexemes (tokensOf "\"// \n\"@b.c /* d") = "\"// \n\" b . c " := by
  decide +kernel

end Lox
