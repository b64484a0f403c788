/-
# Where the semicolons of a program stand

No expression, and no row of parameters, has a semicolon in it.  A semicolon in a row of
tokens that the grammar derives can therefore be looked for part by part: it is not in
the parts without one, and behind them the search goes on (`NoSemicolon.skip`).

The second half of the module is about what stands behind the semicolon of a statement.
If that is a closing brace, a word that starts a statement, or nothing, then without the
semicolon it goes on with no expression, and it is neither the start of one nor any
token that is asked for at the end of a statement.
-/

import Lox.Proofs.Grammar.Completeness.Statement
import Lox.Proofs.Recovery.Halting

namespace Lox.Grammar

/-- There is no semicolon among the tokens. -/
def NoSemicolon (tokens : List Token) : Prop :=
  ∀ token ∈ tokens, token.kind ≠ .symbol .semicolon

theorem noSemicolon_nil : NoSemicolon [] :=
  List.forall_mem_nil _

theorem NoSemicolon.cons {token : Token} {tokens : List Token} {kind : TokenKind}
    (none : NoSemicolon tokens) (same : token.kind = kind) (other : kind ≠ .symbol .semicolon) :
    NoSemicolon (token :: tokens) :=
  List.forall_mem_cons.2 ⟨same ▸ other, none⟩

theorem noSemicolon_append {before behind : List Token} :
    NoSemicolon (before ++ behind) ↔ NoSemicolon before ∧ NoSemicolon behind :=
  List.forall_mem_append

section

variable {semicolon : Token} {before behind front more : List Token}

/-- A token in one row behind another one is in the first row or in the second. -/
theorem append_eq_around (same : before ++ behind = front ++ semicolon :: more) :
    (∃ left, before = front ++ semicolon :: left ∧ more = left ++ behind) ∨
      ∃ left, front = before ++ left ∧ behind = left ++ semicolon :: more := by
  rcases List.append_eq_append_iff.1 same with ⟨left, rfl, rfl⟩ | ⟨left, rfl, found⟩
  · exact .inr ⟨left, rfl, rfl⟩
  · cases left with
    | nil => exact .inr ⟨[], by simp, found.symm⟩
    | cons first left =>
        cases found
        exact .inl ⟨left, rfl, rfl⟩

variable (isSemicolon : semicolon.kind = .symbol .semicolon)

include isSemicolon

/-- A semicolon stands behind the tokens among which there is none. -/
theorem NoSemicolon.skip (none : NoSemicolon before)
    (same : before ++ behind = front ++ semicolon :: more) :
    ∃ left, front = before ++ left ∧ behind = left ++ semicolon :: more := by
  rcases append_eq_around same with ⟨left, rfl, -⟩ | found
  · exact absurd isSemicolon (none semicolon (by simp))
  · exact found

theorem skip_token {first : Token} (other : first.kind ≠ .symbol .semicolon)
    (same : first :: behind = front ++ semicolon :: more) :
    ∃ left, front = first :: left ∧ behind = left ++ semicolon :: more :=
  (noSemicolon_nil.cons rfl other).skip isSemicolon same

/-- Behind tokens without a semicolon the last one is the semicolon. -/
theorem NoSemicolon.last {last : Token} (none : NoSemicolon before)
    (same : before ++ [last] = front ++ semicolon :: more) :
    front = before ∧ last = semicolon ∧ more = [] := by
  obtain ⟨left, rfl, found⟩ := none.skip isSemicolon same
  cases left with
  | nil =>
      cases found
      exact ⟨List.append_nil _, rfl, rfl⟩
  | cons first left =>
      have lengths := congrArg List.length found
      simp at lengths

/-- A semicolon does not stand behind the last token if this is another one. -/
theorem in_front_of_last {last : Token} (other : last.kind ≠ .symbol .semicolon)
    (same : before ++ [last] = front ++ semicolon :: more) :
    ∃ left, before = front ++ semicolon :: left ∧ more = left ++ [last] := by
  rcases append_eq_around same with found | ⟨left, rfl, found⟩
  · exact found
  · obtain ⟨behind, -, none⟩ := skip_token isSemicolon other found
    simp at none

end

theorem Separated.noSemicolon {rows : List (List Token)} {tokens : List Token}
    (separated : Separated rows tokens) (none : ∀ row ∈ rows, NoSemicolon row) :
    NoSemicolon tokens := by
  induction separated with
  | none => exact noSemicolon_nil
  | one tokens => exact none tokens (List.mem_singleton_self tokens)
  | more isComma _ ih =>
      obtain ⟨first, others⟩ := List.forall_mem_cons.1 none
      exact noSemicolon_append.2 ⟨first, (ih others).cons isComma (by decide)⟩

/-- No expression takes a semicolon. -/
theorem Expression.noSemicolon {tier : Tier} {tokens : List Token} {expr : Expr Unit}
    (derived : Expression tier tokens expr) : NoSemicolon tokens := by
  induction derived with
  | assignVariable isName isEqual _ ih =>
      exact (ih.cons isEqual (by decide)).cons isName (by decide)
  | assignProperty _ isDot isName isEqual _ ih ih' =>
      exact noSemicolon_append.2 ⟨ih, ((ih'.cons isEqual (by decide)).cons isName
        (by decide)).cons isDot (by decide)⟩
  | unassigned _ ih => exact ih
  | operation _ listed same _ ih ih' =>
      have noOperator := fun isSemicolon : Token.kind _ = .symbol .semicolon =>
        kind_of_accepts (accepts_iff.2 ⟨_, listed, same⟩) isSemicolon (by decide)
      exact noSemicolon_append.2 ⟨ih, ih'.cons rfl noOperator⟩
  | operand _ ih => exact ih
  | unary isOperator _ ih =>
      rcases isOperator with isBang | isMinus
      · exact ih.cons isBang (by decide)
      · exact ih.cons isMinus (by decide)
  | noPrefix _ ih => exact ih
  | call _ isOpening separated _ _ isClosing ih ih' =>
      have inside := separated.noSemicolon (List.forall_mem_map.2 ih')
      have closing := noSemicolon_nil.cons isClosing (by decide)
      exact noSemicolon_append.2
        ⟨ih, (noSemicolon_append.2 ⟨inside, closing⟩).cons isOpening (by decide)⟩
  | property _ isDot isName ih =>
      exact noSemicolon_append.2
        ⟨ih, (noSemicolon_nil.cons isName (by decide)).cons isDot (by decide)⟩
  | primary _ ih => exact ih
  | grouping isOpening _ isClosing ih =>
      have closing := noSemicolon_nil.cons isClosing (by decide)
      exact (noSemicolon_append.2 ⟨ih, closing⟩).cons isOpening (by decide)
  | _ same => exact noSemicolon_nil.cons same (by simp)

theorem OptionalExpression.noSemicolon {tokens : List Token} {value : Option (Expr Unit)}
    (derived : OptionalExpression tokens value) : NoSemicolon tokens := by
  cases derived with
  | absent => exact noSemicolon_nil
  | present whole => exact whole.noSemicolon

/-- The declaration of a variable has one semicolon, at its end. -/
theorem VariableDeclaration.last {tokens : List Token} {stmt : Stmt Unit}
    (derived : VariableDeclaration tokens stmt) :
    ∃ before last, tokens = before ++ [last] ∧ NoSemicolon before := by
  cases derived with
  | bare isVar isName =>
      exact ⟨[_, _], _, rfl,
        (noSemicolon_nil.cons isName (by decide)).cons isVar (by decide)⟩
  | initialized isVar isName isEqual source =>
      exact ⟨_ :: _ :: _ :: _, _, rfl, ((source.noSemicolon.cons isEqual (by decide)).cons isName
        (by decide)).cons isVar (by decide)⟩

/-- The first clause of a loop has one semicolon, at its end. -/
theorem Initializer.last {tokens : List Token} {initializer : Option (Stmt Unit)}
    (derived : Initializer tokens initializer) :
    ∃ before last, tokens = before ++ [last] ∧ NoSemicolon before := by
  cases derived with
  | absent => exact ⟨[], _, rfl, noSemicolon_nil⟩
  | declaration whole => exact whole.last
  | expression whole =>
      cases whole with
      | intro whole => exact ⟨_, _, rfl, whole.noSemicolon⟩

/-! ## Behind the semicolon of a statement -/

/-- Nothing follows, or a closing brace, or a word that starts a statement. -/
def FollowsStatement (tokens : List Token) : Prop :=
  ∀ token ∈ tokens.head?, token.kind = .symbol .rightBrace ∨ startsStatement token = true

theorem kind_of_startsStatement {token : Token} (starts : startsStatement token = true) :
    ∃ keyword, token.kind = .keyword keyword ∧ keyword ∈ [Keyword.classWord, .funWord, .varWord,
      .forWord, .ifWord, .whileWord, .printWord, .returnWord] := by
  unfold startsStatement at starts
  split at starts
  · next same => exact ⟨_, same, by decide⟩
  · next same => exact ⟨_, same, by decide⟩
  · next same => exact ⟨_, same, by decide⟩
  · next same => exact ⟨_, same, by decide⟩
  · next same => exact ⟨_, same, by decide⟩
  · next same => exact ⟨_, same, by decide⟩
  · next same => exact ⟨_, same, by decide⟩
  · next same => exact ⟨_, same, by decide⟩
  · cases starts

namespace FollowsStatement

variable {first : Token} {rest : List Token}

/-- What follows a statement is no symbol but a closing brace. -/
theorem not_symbol (follows : FollowsStatement (first :: rest)) {symbol : Symbol}
    (other : symbol ≠ .rightBrace) : first.kind ≠ .symbol symbol := by
  intro same
  rcases follows first rfl with isRight | starts
  · rw [same] at isRight
    cases isRight
    exact other rfl
  · obtain ⟨keyword, found, -⟩ := kind_of_startsStatement starts
    rw [same] at found
    cases found

theorem isSymbol_eq_false (follows : FollowsStatement (first :: rest)) {symbol : Symbol}
    (other : symbol ≠ .rightBrace) : first.isSymbol symbol = false :=
  Bool.eq_false_iff.2 fun same => follows.not_symbol other (Token.isSymbol_iff.1 same)

/-- What follows a statement does not start an expression. -/
theorem not_starts (follows : FollowsStatement (first :: rest)) : ¬ StartsExpression first := by
  intro starts
  rcases follows first rfl with isRight | word
  · exact starts.not_symbol isRight (by decide)
  · obtain ⟨keyword, same, listed⟩ := kind_of_startsStatement word
    apply starts.not_keyword same
    clear same
    decide +revert

/-- Every expression ends in front of what follows a statement. -/
theorem ends {tokens : List Token} (follows : FollowsStatement tokens) :
    Ends .assignment tokens := by
  cases tokens with
  | nil => simp [Ends]
  | cons first rest =>
      rw [ends_cons]
      rintro ((isOpening | isDot) | ⟨level, -, accepted⟩ | isEqual)
      · exact follows.not_symbol (by decide) isOpening
      · exact follows.not_symbol (by decide) isDot
      · rcases follows first rfl with isRight | word
        · simp [Precedence.accepts, isRight] at accepted
        · obtain ⟨keyword, same, listed⟩ := kind_of_startsStatement word
          unfold Precedence.accepts at accepted
          rw [same] at accepted
          simp only [List.mem_cons, List.not_mem_nil, or_false] at listed
          rcases listed with rfl | rfl | rfl | rfl | rfl | rfl | rfl | rfl <;>
            cases level <;> cases accepted
      · exact follows.not_symbol (by decide) isEqual

/-- A symbol that is asked for is not there. -/
theorem outcome_expect {tokens : List Token} (follows : FollowsStatement tokens)
    {symbol : Symbol} (other : symbol ≠ .rightBrace) (fault : SyntaxFault) :
    (expect (·.isSymbol symbol) fault tokens).outcome = .stuck [] fault tokens := by
  cases tokens with
  | nil => rfl
  | cons first rest =>
      rw [outcome_expect_cons, follows.isSymbol_eq_false other, if_neg Bool.false_ne_true]

/-- An expression that is asked for is not there. -/
theorem outcome_expression {tokens : List Token} (follows : FollowsStatement tokens) :
    (expression tokens).outcome = .stuck [] .noExpression tokens := by
  apply outcome_expression_of_stuck
  cases tokens with
  | nil => rw [prefixed, Reader.outcome_stopped]
  | cons first rest => exact outcome_prefixed_of_not_starts follows.not_starts rest

/-- An expression in front is read, but not the semicolon that is asked for. -/
theorem outcome_expression_expect {α : Type} {tokens rest : List Token} {expr : Expr Unit}
    (follows : FollowsStatement rest) (derived : Expression .assignment tokens expr)
    (fault : SyntaxFault) (f : Expr Unit → Token → α) :
    ((expression (tokens ++ rest)).andThen fun expr rest _ =>
      (expect (·.isSymbol .semicolon) fault rest).map (f expr)).outcome =
        .stuck [] fault rest := by
  rw [Reader.outcome_andThen, (derived.clean follows.ends).outcome_eq, Outcome.bind_done,
    Reader.outcome_map, follows.outcome_expect (by decide)]
  rfl

end FollowsStatement

end Lox.Grammar
