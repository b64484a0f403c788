/-
# The source form reads back

The source form of an expression that was read, with a semicolon behind it,
is a program again: one expression statement, whose expression differs from
the first one at most in the lines of its tokens.  No parentheses are missing,
because the tree of a text that was read has a grouping wherever one was
needed, and the grammar derives the printed tokens in the same way.

Infinite numbers are left out: a text can spell one by digits, but its source
form is a word.
-/

import Lox.Proofs.Grammar.Program
import Lox.Proofs.SourceForm.Nodes
import Lox.Proofs.SourceForm.Scanning

namespace Lox

variable {ρ : Type}

/-- The same token without its line. -/
def Token.withoutLine (token : Token) : Token :=
  { token with line := 0 }

namespace Expr

mutual

/-- The same expression without the lines of its tokens. -/
def withoutLines : Expr ρ → Expr ρ
  | literal value => .literal value
  | grouping inner => .grouping inner.withoutLines
  | unary operator operand => .unary operator.withoutLine operand.withoutLines
  | binary left operator right =>
    .binary left.withoutLines operator.withoutLine right.withoutLines
  | logical left operator right =>
    .logical left.withoutLines operator.withoutLine right.withoutLines
  | .variable reference name => .variable reference name.withoutLine
  | assign reference name value => .assign reference name.withoutLine value.withoutLines
  | call callee paren arguments =>
    .call callee.withoutLines paren.withoutLine (allWithoutLines arguments)
  | get object name => .get object.withoutLines name.withoutLine
  | set object name value => .set object.withoutLines name.withoutLine value.withoutLines
  | this reference keyword => .this reference keyword.withoutLine

/-- The same expressions without the lines of their tokens. -/
def allWithoutLines : List (Expr ρ) → List (Expr ρ)
  | [] => []
  | expr :: rest => expr.withoutLines :: allWithoutLines rest

end

end Expr

namespace Token

theorem word_fst (token : Token) : token.word.1 = token.kind := by
  rw [word]
  split
  · next same => exact same.symm
  · rfl

theorem kind_eq_of_word {first second : Token} (same : first.word = second.word) :
    first.kind = second.kind := by
  rw [← word_fst, ← word_fst, same]

/-- Tokens that are no numbers and have one word differ at most in their line. -/
theorem withoutLine_eq_of_word {first second : Token} (same : first.word = second.word)
    (noNumber : ∀ value, second.kind ≠ .number value) : first.withoutLine = second.withoutLine := by
  have kinds := kind_eq_of_word same
  have lexemes : first.lexeme = second.lexeme := by
    rw [word, word, kinds] at same
    split at same
    · next value isNumber => exact absurd isNumber (noNumber value)
    · exact congrArg Prod.snd same
  rw [withoutLine, withoutLine, kinds, lexemes]

end Token

namespace Grammar

theorem matches_of_word {terminal : Terminal} {first second : Token}
    (same : first.word = second.word) (wanted : terminal.Matches second) :
    terminal.Matches first := by
  have kinds := Token.kind_eq_of_word same
  cases terminal <;> simpa [Terminal.Matches, kinds] using wanted

theorem withoutLines_node (level : Precedence) (left right : Expr Unit) (operator : Token) :
    (level.node left operator right).withoutLines =
      level.node left.withoutLines operator.withoutLine right.withoutLines := by
  cases level <;> simp [Precedence.node, Expr.withoutLines]

theorem sourceForm_node (level : Precedence) (left right : Expr Unit) (operator : Token) :
    (level.node left operator right).sourceForm =
      left.sourceForm ++ " " ++ operator.lexeme ++ " " ++ right.sourceForm := by
  cases level <;> simp [Precedence.node, Expr.sourceForm]

/-- What is derived from some tokens up to their lines. -/
def Reworded (tier : Tier) (tokens : List Token) (expr : Expr Unit) : Prop :=
  ∀ other : List Token, other.map Token.word = tokens.map Token.word →
    ∃ again, Expression tier other again ∧ again.withoutLines = expr.withoutLines

theorem exists_rows_of_reworded {rows : List (List Token × Expr Unit)} {inside other : List Token}
    (each : ∀ row ∈ rows, Reworded .assignment row.1 row.2)
    (separated : Separated (rows.map Prod.fst) inside)
    (same : other.map Token.word = inside.map Token.word) :
    ∃ again : List (List Token × Expr Unit), Separated (again.map Prod.fst) other ∧
      (∀ row ∈ again, Expression .assignment row.1 row.2) ∧ again.length = rows.length ∧
      Expr.allWithoutLines (again.map Prod.snd) = Expr.allWithoutLines (rows.map Prod.snd) := by
  induction rows generalizing inside other with
  | nil =>
      cases separated
      rw [List.map_nil, List.map_eq_nil_iff] at same
      exact ⟨[], same ▸ .none, by simp, rfl, rfl⟩
  | cons row rows ih =>
      cases rows with
      | nil =>
          cases separated
          obtain ⟨again, derived, equal⟩ := each row List.mem_cons_self other same
          refine ⟨[(other, again)], .one other, by simpa using derived, rfl, ?_⟩
          simp [Expr.allWithoutLines, equal]
      | cons second others =>
          obtain - | - | @⟨_, _, behind, _, comma, isComma, more⟩ := separated
          simp only [List.map_append, List.map_cons, List.map_eq_append_iff,
            List.map_eq_cons_iff] at same
          obtain ⟨front, _, rfl, first, comma', behind', rfl, sign, later⟩ := same
          obtain ⟨again, derived, equal⟩ := each row List.mem_cons_self front first
          obtain ⟨rows', separated', all, length, equals⟩ :=
            ih (fun other member => each other (List.mem_cons_of_mem _ member)) more later
          cases rows' with
          | nil => cases length
          | cons row' rows' =>
              refine ⟨(front, again) :: row' :: rows', ?_, ?_, ?_, ?_⟩
              · exact .more ((Token.kind_eq_of_word sign).trans isComma) separated'
              · exact List.forall_mem_cons.2 ⟨derived, all⟩
              · exact congrArg (· + 1) length
              · show again.withoutLines :: Expr.allWithoutLines _ =
                  row.2.withoutLines :: Expr.allWithoutLines _
                rw [equal, equals]

/-- Tokens with the same words derive the same tree, up to lines. -/
theorem Expression.reworded {tier : Tier} {tokens : List Token} {expr : Expr Unit}
    (derived : Expression tier tokens expr) : Reworded tier tokens expr := by
  induction derived with
  | assignVariable isName isEqual _ ih =>
      intro other same
      simp only [List.map_cons, List.map_eq_cons_iff] at same
      obtain ⟨name, _, rfl, sameName, equals, tokens, rfl, sameEqual, rest⟩ := same
      obtain ⟨again, source, equal⟩ := ih tokens rest
      refine ⟨_, .assignVariable ((Token.kind_eq_of_word sameName).trans isName)
        ((Token.kind_eq_of_word sameEqual).trans isEqual) source, ?_⟩
      have names := Token.withoutLine_eq_of_word sameName (by simp [isName])
      rw [Expr.withoutLines, Expr.withoutLines, names, equal]
  | assignProperty _ isDot isName isEqual _ ih ih' =>
      intro other same
      simp only [List.map_append, List.map_cons, List.map_eq_append_iff,
        List.map_eq_cons_iff] at same
      obtain ⟨before, _, rfl, front, dot, _, rfl, sameDot, name, _, rfl, sameName, equals, tokens,
        rfl, sameEqual, rest⟩ := same
      obtain ⟨object, owner, equal⟩ := ih before front
      obtain ⟨again, source, equal'⟩ := ih' tokens rest
      refine ⟨_, .assignProperty owner ((Token.kind_eq_of_word sameDot).trans isDot)
        ((Token.kind_eq_of_word sameName).trans isName)
        ((Token.kind_eq_of_word sameEqual).trans isEqual) source, ?_⟩
      have names := Token.withoutLine_eq_of_word sameName (by simp [isName])
      rw [Expr.withoutLines, Expr.withoutLines, names, equal, equal']
  | unassigned _ ih =>
      intro other same
      obtain ⟨again, whole, equal⟩ := ih other same
      exact ⟨again, .unassigned whole, equal⟩
  | operation _ listed wanted _ ih ih' =>
      intro other same
      simp only [List.map_append, List.map_cons, List.map_eq_append_iff,
        List.map_eq_cons_iff] at same
      obtain ⟨before, _, rfl, front, operator, behind, rfl, sign, rest⟩ := same
      obtain ⟨left, first, equal⟩ := ih before front
      obtain ⟨right, second, equal'⟩ := ih' behind rest
      refine ⟨_, .operation first listed (matches_of_word sign wanted) second, ?_⟩
      have operators := Token.withoutLine_eq_of_word sign fun value isNumber => by
        rcases kind_of_operator listed wanted with ⟨symbol, kind⟩ | ⟨keyword, kind⟩
        · cases kind.symm.trans isNumber
        · cases kind.symm.trans isNumber
      rw [withoutLines_node, withoutLines_node, equal, equal', operators]
  | operand _ ih =>
      intro other same
      obtain ⟨again, whole, equal⟩ := ih other same
      exact ⟨again, .operand whole, equal⟩
  | unary isOperator _ ih =>
      intro other same
      simp only [List.map_cons, List.map_eq_cons_iff] at same
      obtain ⟨operator, tokens, rfl, sign, rest⟩ := same
      obtain ⟨again, operand, equal⟩ := ih tokens rest
      have kinds := Token.kind_eq_of_word sign
      refine ⟨_, .unary (by rwa [kinds]) operand, ?_⟩
      have operators := Token.withoutLine_eq_of_word sign fun value isNumber => by
        simp [isNumber] at isOperator
      rw [Expr.withoutLines, Expr.withoutLines, equal, operators]
  | noPrefix _ ih =>
      intro other same
      obtain ⟨again, whole, equal⟩ := ih other same
      exact ⟨again, .noPrefix whole, equal⟩
  | call _ isOpening separated _ few isClosing ih ih' =>
      intro other same
      simp only [List.map_append, List.map_cons, List.map_nil, List.map_eq_append_iff,
        List.map_eq_cons_iff, List.map_eq_nil_iff] at same
      obtain ⟨before, _, rfl, front, opening, _, rfl, sameOpening, inside, _, rfl, inner, closing,
        _, rfl, sameClosing, rfl⟩ := same
      obtain ⟨callee, called, equal⟩ := ih before front
      obtain ⟨rows, separated', all, length, equals⟩ := exists_rows_of_reworded ih' separated inner
      refine ⟨_, .call called ((Token.kind_eq_of_word sameOpening).trans isOpening) separated' all
        (length ▸ few) ((Token.kind_eq_of_word sameClosing).trans isClosing), ?_⟩
      have parens := Token.withoutLine_eq_of_word sameClosing (by simp [isClosing])
      rw [Expr.withoutLines, Expr.withoutLines, equal, equals, parens]
  | property _ isDot isName ih =>
      intro other same
      simp only [List.map_append, List.map_cons, List.map_nil, List.map_eq_append_iff,
        List.map_eq_cons_iff, List.map_eq_nil_iff] at same
      obtain ⟨before, _, rfl, front, dot, _, rfl, sameDot, name, _, rfl, sameName, rfl⟩ := same
      obtain ⟨object, owner, equal⟩ := ih before front
      refine ⟨_, .property owner ((Token.kind_eq_of_word sameDot).trans isDot)
        ((Token.kind_eq_of_word sameName).trans isName), ?_⟩
      have names := Token.withoutLine_eq_of_word sameName (by simp [isName])
      rw [Expr.withoutLines, Expr.withoutLines, equal, names]
  | primary _ ih =>
      intro other same
      obtain ⟨again, whole, equal⟩ := ih other same
      exact ⟨again, .primary whole, equal⟩
  | grouping isOpening _ isClosing ih =>
      intro other same
      simp only [List.map_append, List.map_cons, List.map_nil, List.map_eq_append_iff,
        List.map_eq_cons_iff, List.map_eq_nil_iff] at same
      obtain ⟨opening, _, rfl, sameOpening, tokens, _, rfl, inner, closing, _, rfl, sameClosing,
        rfl⟩ := same
      obtain ⟨again, inside, equal⟩ := ih tokens inner
      refine ⟨_, .grouping ((Token.kind_eq_of_word sameOpening).trans isOpening) inside
        ((Token.kind_eq_of_word sameClosing).trans isClosing), ?_⟩
      rw [Expr.withoutLines, Expr.withoutLines, equal]
  | thisWord kind =>
      intro other same
      simp only [List.map_cons, List.map_nil, List.map_eq_cons_iff, List.map_eq_nil_iff] at same
      obtain ⟨token, _, rfl, word, rfl⟩ := same
      refine ⟨_, .thisWord ((Token.kind_eq_of_word word).trans kind), ?_⟩
      rw [Expr.withoutLines, Expr.withoutLines,
        Token.withoutLine_eq_of_word word (by simp [kind])]
  | reference kind =>
      intro other same
      simp only [List.map_cons, List.map_nil, List.map_eq_cons_iff, List.map_eq_nil_iff] at same
      obtain ⟨token, _, rfl, word, rfl⟩ := same
      refine ⟨_, .reference ((Token.kind_eq_of_word word).trans kind), ?_⟩
      rw [Expr.withoutLines, Expr.withoutLines,
        Token.withoutLine_eq_of_word word (by simp [kind])]
  | number kind =>
      intro other same
      simp only [List.map_cons, List.map_nil, List.map_eq_cons_iff, List.map_eq_nil_iff] at same
      obtain ⟨token, _, rfl, word, rfl⟩ := same
      exact ⟨_, .number ((Token.kind_eq_of_word word).trans kind), rfl⟩
  | string kind =>
      intro other same
      simp only [List.map_cons, List.map_nil, List.map_eq_cons_iff, List.map_eq_nil_iff] at same
      obtain ⟨token, _, rfl, word, rfl⟩ := same
      exact ⟨_, .string ((Token.kind_eq_of_word word).trans kind), rfl⟩
  | trueWord kind =>
      intro other same
      simp only [List.map_cons, List.map_nil, List.map_eq_cons_iff, List.map_eq_nil_iff] at same
      obtain ⟨token, _, rfl, word, rfl⟩ := same
      exact ⟨_, .trueWord ((Token.kind_eq_of_word word).trans kind), rfl⟩
  | falseWord kind =>
      intro other same
      simp only [List.map_cons, List.map_nil, List.map_eq_cons_iff, List.map_eq_nil_iff] at same
      obtain ⟨token, _, rfl, word, rfl⟩ := same
      exact ⟨_, .falseWord ((Token.kind_eq_of_word word).trans kind), rfl⟩
  | nilWord kind =>
      intro other same
      simp only [List.map_cons, List.map_nil, List.map_eq_cons_iff, List.map_eq_nil_iff] at same
      obtain ⟨token, _, rfl, word, rfl⟩ := same
      exact ⟨_, .nilWord ((Token.kind_eq_of_word word).trans kind), rfl⟩

/-- A token that reads back from what is printed for it. -/
structure Printable (token : Token) : Prop where
  spelled : token.WellSpelled
  finite : ∀ value, token.kind = .number value → value.isFinite = true

/-- An expression that was derived prints as a text that scans to its tokens. -/
theorem Expression.prints {tier : Tier} {tokens : List Token} {expr : Expr Unit}
    (derived : Expression tier tokens expr) (printable : ∀ token ∈ tokens, Printable token) :
    Prints expr.sourceForm.toList tokens := by
  induction derived with
  | assignVariable isName isEqual _ ih =>
      simp only [List.forall_mem_cons] at printable
      obtain ⟨name, equals, inside⟩ := printable
      have front := Prints.token name.spelled (by simp [isName])
      have whole := front.between equals.spelled (ih inside)
      rw [equals.spelled.lexeme_eq_of_symbol isEqual] at whole
      simpa [Expr.sourceForm, Symbol.spelling] using whole
  | assignProperty _ isDot isName isEqual _ ih ih' =>
      simp only [List.forall_mem_append, List.forall_mem_cons] at printable
      obtain ⟨owner, dot, name, equals, inside⟩ := printable
      have front := (ih owner).property dot.spelled isDot name.spelled isName
      have whole := front.between equals.spelled (ih' inside)
      rw [equals.spelled.lexeme_eq_of_symbol isEqual] at whole
      simpa [Expr.sourceForm, Symbol.spelling] using whole
  | unassigned _ ih => exact ih printable
  | operation _ _ _ _ ih ih' =>
      simp only [List.forall_mem_append, List.forall_mem_cons] at printable
      obtain ⟨left, operator, right⟩ := printable
      have whole := (ih left).between operator.spelled (ih' right)
      rw [sourceForm_node]
      simpa using whole
  | operand _ ih => exact ih printable
  | unary isOperator _ ih =>
      simp only [List.forall_mem_cons] at printable
      obtain ⟨operator, inside⟩ := printable
      have whole := Prints.prefixed operator.spelled (by simpa using isOperator) (ih inside)
      simpa [Expr.sourceForm] using whole
  | noPrefix _ ih => exact ih printable
  | @call _ _ _ _ _ rows _ isOpening separated _ _ isClosing ih ih' =>
      simp only [List.forall_mem_append, List.forall_mem_cons] at printable
      obtain ⟨callee, opening, inside, closing, -⟩ := printable
      have called := ih callee
      have each : ∀ row ∈ rows, Prints row.2.sourceForm.toList row.1 := fun row member =>
        ih' row member fun token used =>
          inside token (separated.mem.1 row.1 (List.mem_map_of_mem member) token used)
      have between : ∀ rest, Stops rest → Scans _ _ rest := fun rest stops =>
        scans_separated each separated (fun token member => (inside token member).spelled) stops
      have behind := Prints.enclosed opening.spelled isOpening between closing.spelled isClosing
      constructor
      · rw [Expr.sourceForm]
        simpa using starts_append called.starts
      · intro rest _
        have stop (more : List Char) : Stops ('(' :: more) :=
          stops_cons (by decide) (by decide) more
        have whole := (called.scans _ (stop _)).append (behind rest)
        simpa [Expr.sourceForm] using whole
  | property _ isDot isName ih =>
      simp only [List.forall_mem_append, List.forall_mem_cons] at printable
      obtain ⟨owner, dot, name, -⟩ := printable
      have whole := (ih owner).property dot.spelled isDot name.spelled isName
      simpa [Expr.sourceForm] using whole
  | primary _ ih => exact ih printable
  | @grouping _ _ _ inner isOpening _ isClosing ih =>
      simp only [List.forall_mem_append, List.forall_mem_cons] at printable
      obtain ⟨opening, inside, closing, -⟩ := printable
      have whole := Prints.enclosed opening.spelled isOpening (ih inside).scans closing.spelled
        isClosing
      have text : (Expr.grouping inner).sourceForm.toList =
          '(' :: (inner.sourceForm.toList ++ [')']) := by simp [Expr.sourceForm]
      rw [text]
      exact ⟨⟨'(', _, rfl, by decide⟩, fun rest _ => whole rest⟩
  | thisWord kind =>
      have token := printable _ List.mem_cons_self
      have word := Prints.token token.spelled (by simp [kind])
      rwa [token.spelled.lexeme_eq_of_keyword kind] at word
  | reference kind =>
      exact Prints.token (printable _ List.mem_cons_self).spelled (by simp [kind])
  | number kind =>
      have token := printable _ List.mem_cons_self
      exact Prints.number token.spelled kind (token.finite _ kind)
  | string kind =>
      have token := printable _ List.mem_cons_self
      have word := Prints.token token.spelled (by simp [kind])
      rwa [token.spelled.lexeme_eq_of_string kind] at word
  | trueWord kind =>
      have token := printable _ List.mem_cons_self
      have word := Prints.token token.spelled (by simp [kind])
      rwa [token.spelled.lexeme_eq_of_keyword kind] at word
  | falseWord kind =>
      have token := printable _ List.mem_cons_self
      have word := Prints.token token.spelled (by simp [kind])
      rwa [token.spelled.lexeme_eq_of_keyword kind] at word
  | nilWord kind =>
      have token := printable _ List.mem_cons_self
      have word := Prints.token token.spelled (by simp [kind])
      rwa [token.spelled.lexeme_eq_of_keyword kind] at word

/-- The words of an expression, and no others, stand in a text with a semicolon
behind it. -/
theorem scan_of_prints {text : List Char} {tokens : List Token} (prints : Prints text tokens) :
    ∃ (found : List Token) (semicolon mark : Token),
      streamFrom 1 (segments (text ++ [';'])) =
        (found ++ [semicolon, mark]).map StreamItem.token ∧
      found.map Token.word = tokens.map Token.word ∧
      semicolon.kind = .symbol .semicolon ∧ mark.isEnd = true := by
  have stops : Stops [';'] := stops_cons (by decide) (by decide) []
  obtain ⟨found, line, scanned, same⟩ := prints.scans [';'] stops 1
  have last : streamFrom line (segments [';']) =
      [.token ⟨.symbol .semicolon, ";", line⟩, .token (.atEnd line)] := by
    have single : cut ';' [] = ⟨⟨[';'], .token (.symbol .semicolon)⟩, []⟩ := rfl
    have noMore : segments [] = [] := by rw [segments]
    rw [segments, single, noMore]
    rfl
  refine ⟨found, ⟨.symbol .semicolon, ";", line⟩, .atEnd line, ?_, same, rfl, rfl⟩
  rw [scanned, last, List.map_append]
  rfl

end Grammar

open Grammar

/-- A token with the word of one that is spelled is no end mark. -/
theorem isEnd_eq_false_of_word {first second : Token} (same : first.word = second.word)
    (spelled : second.WellSpelled) : first.isEnd = false := by
  have noMark := spelled.isEnd_eq_false
  rwa [Token.isEnd, ← Token.kind_eq_of_word same] at noMark

/-- The nodes of a text that is read without an error are derived from tokens
that are spelled as they should be. -/
theorem exists_spelled_of_node {source : String} {expr : Expr Unit}
    (parses : (Program.ofSource false source).errors = [])
    (node : expr ∈ Stmt.allNodes (Program.ofSource false source).statements) :
    ∃ tokens, (∀ token ∈ tokens, token.WellSpelled) ∧ Expression .assignment tokens expr := by
  have quiet : (declarations false (beforeEnd (tokensOf source))).2 = [] :=
    errors_ofTokens_eq_nil.1 parses
  have tree := programTree_of_quiet quiet
  rcases tree.written node with ⟨tokens, inside, derived⟩ | rfl
  · exact ⟨tokens, fun token member => wellSpelled_of_mem_tokensOf (inside token member), derived⟩
  · refine ⟨[writtenTrue], ?_, ?_⟩
    · intro token member
      rw [List.mem_singleton.1 member]
      exact .keyword .trueWord
    · exact Expression.whole (.trueWord rfl)

/-- Whatever expression stands in a text that is read without an error, its
source form with a semicolon behind it is read without an error as well, as
one expression statement.  The expression of that statement is the same one,
but for the lines of its tokens. -/
theorem sourceForm_reads_back {source : String}
    (parses : (Program.ofSource false source).errors = []) {expr : Expr Unit}
    (node : expr ∈ Stmt.allNodes (Program.ofSource false source).statements)
    (finite : expr.FiniteNumbers) :
    lexicalErrorsOf (expr.sourceForm ++ ";") = [] ∧
      (Program.ofSource false (expr.sourceForm ++ ";")).errors = [] ∧
      ∃ again, (Program.ofSource false (expr.sourceForm ++ ";")).statements =
          [.expression again] ∧
        again.withoutLines = expr.withoutLines := by
  obtain ⟨tokens, spelled, derived⟩ := exists_spelled_of_node parses node
  have printable : ∀ token ∈ tokens, Printable token := fun token member =>
    ⟨spelled token member, fun value isNumber =>
      finite value (derived.mem_nodes_of_number member isNumber)⟩
  obtain ⟨found, semicolon, mark, scanned, same, isSemicolon, isEnd⟩ :=
    scan_of_prints (derived.prints printable)
  obtain ⟨again, reads, equal⟩ := derived.reworded found same
  have text : scan (expr.sourceForm ++ ";") =
      (found ++ [semicolon, mark]).map StreamItem.token := by
    rw [scan, String.toList_append]
    exact scanned
  have listed : tokensOf (expr.sourceForm ++ ";") = found ++ [semicolon, mark] := by
    rw [tokensOf, text, List.filterMap_map]
    exact List.filterMap_some
  have inFront : ∀ token ∈ found ++ [semicolon], token.isEnd = false := by
    intro token member
    rcases List.mem_append.1 member with member | member
    · have word : token.word ∈ tokens.map Token.word := same ▸ List.mem_map_of_mem member
      obtain ⟨second, listed, word⟩ := List.mem_map.1 word
      exact isEnd_eq_false_of_word word.symm (spelled second listed)
    · rw [List.mem_singleton.1 member, Token.isEnd, isSemicolon]
      rfl
  have kept : beforeEnd (tokensOf (expr.sourceForm ++ ";")) = found ++ [semicolon] := by
    rw [listed, List.append_cons, beforeEnd, List.takeWhile_append_of_pos fun token member => by rw [inFront token member]; rfl]
    simp [isEnd]
  have tree : ProgramTree (found ++ [semicolon]) [.expression again] := by
    have whole : Statement .declaration (found ++ [semicolon]) (.expression again) false :=
      .statement (.expression (.intro reads isSemicolon))
    exact ⟨[(_, _, false)], by simpa using whole, by simp, rfl⟩
  have read := tree.declarations_eq false
  rw [← kept] at read
  have statements : (Program.ofSource false (expr.sourceForm ++ ";")).statements =
      [.expression again] := congrArg Prod.fst read
  refine ⟨?_, ?_, again, statements, equal⟩
  · rw [lexicalErrorsOf, text, List.filterMap_map]
    exact List.filterMap_eq_nil_iff.2 fun _ _ => rfl
  · exact errors_ofTokens_eq_nil.2 (congrArg Prod.snd read)

/-- The expression of the text `-1.5;`. -/
def minusOneAndHalf : Expr Unit :=
  .unary ⟨.symbol .minus, "-", 1⟩ (.literal (.number (Cut.numberValue ['1'] ['5'])))

theorem ofSource_minusOneAndHalf :
    (Program.ofSource false "-1.5;").errors = [] ∧
      (Program.ofSource false "-1.5;").statements = [.expression minusOneAndHalf] := by
  have minus : cut '-' ['1', '.', '5', ';'] =
      ⟨⟨['-'], .token (.symbol .minus)⟩, ['1', '.', '5', ';']⟩ := rfl
  have number : cut '1' ['.', '5', ';'] =
      ⟨⟨['1', '.', '5'], .token (.number (Cut.numberValue ['1'] ['5']))⟩, [';']⟩ := rfl
  have semicolon : cut ';' [] = ⟨⟨[';'], .token (.symbol .semicolon)⟩, []⟩ := rfl
  have scanned : segments ['-', '1', '.', '5', ';'] =
      [⟨['-'], .token (.symbol .minus)⟩,
        ⟨['1', '.', '5'], .token (.number (Cut.numberValue ['1'] ['5']))⟩,
        ⟨[';'], .token (.symbol .semicolon)⟩] := by
    rw [segments, minus, segments, number, segments, semicolon, segments]
  have listed : beforeEnd (tokensOf "-1.5;") = [⟨.symbol .minus, "-", 1⟩,
      ⟨.number (Cut.numberValue ['1'] ['5']), "1.5", 1⟩, ⟨.symbol .semicolon, ";", 1⟩] := by
    show beforeEnd ((streamFrom 1 (segments ['-', '1', '.', '5', ';'])).filterMap _) = _
    rw [scanned]
    rfl
  have whole : Expression .unary [⟨.symbol .minus, "-", 1⟩,
      ⟨.number (Cut.numberValue ['1'] ['5']), "1.5", 1⟩] minusOneAndHalf :=
    .unary (.inr rfl) (.noPrefix (.primary (.number rfl)))
  have statement : Statement .declaration ([_, _] ++ [⟨.symbol .semicolon, ";", 1⟩])
      (.expression minusOneAndHalf) false :=
    .statement (.expression (.intro whole.whole rfl))
  have tree : ProgramTree (beforeEnd (tokensOf "-1.5;")) [.expression minusOneAndHalf] := by
    rw [listed]
    exact ⟨[(_, _, false)], List.forall_mem_singleton.2 statement, rfl, rfl⟩
  have read := tree.declarations_eq false
  exact ⟨errors_ofTokens_eq_nil.2 (congrArg Prod.snd read), congrArg Prod.fst read⟩

theorem minusOneAndHalf_reads_back :
    lexicalErrorsOf (minusOneAndHalf.sourceForm ++ ";") = [] ∧
      (Program.ofSource false (minusOneAndHalf.sourceForm ++ ";")).errors = [] ∧
      ∃ again, (Program.ofSource false (minusOneAndHalf.sourceForm ++ ";")).statements =
          [.expression again] ∧
        again.withoutLines = minusOneAndHalf.withoutLines := by
  apply sourceForm_reads_back ofSource_minusOneAndHalf.1
  · rw [ofSource_minusOneAndHalf.2, Stmt.allNodes, Stmt.allNodes, Stmt.nodes, List.append_nil]
    exact Expr.mem_nodes_self _
  · have finite : (Cut.numberValue ['1'] ['5']).isFinite = true := by decide
    simpa [minusOneAndHalf, Expr.FiniteNumbers, Expr.nodes] using finite

end Lox
