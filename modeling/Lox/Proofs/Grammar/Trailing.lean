/-
# Leaving off the last semicolon

In the trailing mode an expression statement at the end of the input may go without
its semicolon.  This module shows that nothing else changes: what is read without a
fault in the other mode is read alike in this one, and what is read without a fault
in this one is either read alike in the other one or needs one semicolon behind it.

The mode matters wherever an expression statement may stand, also deep inside other
statements.  There, however, it matters only if nothing follows up to the end of the
input.  A block, the clauses of a loop and a class have a token of their own to come,
so that nothing inside them can be cut off.
-/

import Lox.Proofs.Grammar.Prefix

namespace Lox.Grammar

open Reader

/-- With a semicolon behind them the tokens are of the form, and this is their tree. -/
def NeedsSemicolon (form : Form) (tokens : List Token) (stmt : Stmt Unit) : Prop :=
  ∀ semicolon : Token, semicolon.kind = .symbol .semicolon →
    ∃ dangling, Statement form (tokens ++ [semicolon]) stmt dangling

/-- An expression statement has its semicolon, or nothing is left and it needs one. -/
theorem expressionStatement_of_trailing {tokens rest : List Token} {stmt : Stmt Unit}
    (clean : (expressionStatement true tokens).Clean stmt rest) :
    (expressionStatement false tokens).Clean stmt rest ∨
      rest = [] ∧ NeedsSemicolon .statement tokens stmt := by
  rw [expressionStatement, clean_andPerhaps] at clean
  obtain ⟨expr, left, shorter, whole, closing⟩ := clean
  cases left with
  | nil =>
      rw [List.isEmpty_nil, Bool.and_self, if_pos rfl, clean_still] at closing
      obtain ⟨rfl, rfl⟩ := closing
      obtain ⟨used, same, derived⟩ := expression_of_clean whole
      rw [List.append_nil] at same
      subst same
      exact .inr ⟨rfl, fun semicolon isSemicolon =>
        ⟨false, .expression (.intro derived isSemicolon)⟩⟩
  | cons token left =>
      left
      rw [expressionStatement, clean_andPerhaps]
      exact ⟨expr, token :: left, shorter, whole, closing⟩

/-- The first clause of a loop has its semicolon, or nothing is left. -/
theorem initializerClause_of_trailing {tokens rest : List Token}
    {initializer : Option (Stmt Unit)}
    (clean : (initializerClause true tokens).Clean initializer rest) :
    (initializerClause false tokens).Clean initializer rest ∨ rest = [] := by
  cases tokens with
  | nil =>
      rw [initializerClause, clean_map] at clean
      obtain ⟨stmt, inner, rfl⟩ := clean
      refine (expressionStatement_of_trailing inner).imp (fun closed => ?_) And.left
      rw [initializerClause, clean_map]
      exact ⟨stmt, closed, rfl⟩
  | cons first tokens =>
      rw [initializerClause] at clean ⊢
      split at clean
      · next isSemicolon => exact .inl (by rwa [if_pos isSemicolon])
      · next noSemicolon =>
          rw [if_neg noSemicolon]
          split at clean
          · next isVar => exact .inl (by rwa [if_pos isVar])
          · next noVar =>
              rw [if_neg noVar]
              rw [clean_map] at clean ⊢
              obtain ⟨stmt, inner, rfl⟩ := clean
              exact (expressionStatement_of_trailing inner).imp (fun closed => ⟨stmt, closed, rfl⟩)
                And.left

/-- Nothing is read where nothing is left. -/
theorem not_clean_expression_nil {expr : Expr Unit} {rest : List Token} :
    ¬ (expression []).Clean expr rest := fun clean => by
  have := clean.length_lt
  simp at this

/-- The clauses of a loop end with a parenthesis, so that they have their semicolons. -/
theorem loopClauses_of_trailing {tokens rest : List Token} {clauses : Clauses Unit}
    (clean : (loopClauses true tokens).Clean clauses rest) :
    (loopClauses false tokens).Clean clauses rest := by
  rw [loopClauses, clean_andThen] at clean ⊢
  obtain ⟨left, inside, shorter, isLeft, clean⟩ := clean
  refine ⟨left, inside, shorter, isLeft, ?_⟩
  rw [clean_andPerhaps] at clean ⊢
  obtain ⟨initializer, middle, shorter, first, clean⟩ := clean
  rcases initializerClause_of_trailing first with closed | rfl
  · exact ⟨initializer, middle, shorter, closed, clean⟩
  · rw [clean_andThen] at clean
    obtain ⟨guard, _, _, second, _⟩ := clean
    rw [expressionUnless, clean_behind, clean_map] at second
    obtain ⟨_, inner, _⟩ := second
    exact absurd inner not_clean_expression_nil

mutual

theorem declaration_of_trailing {first : Token} {tokens rest : List Token} {stmt : Stmt Unit}
    (clean : (declaration true first tokens).Clean stmt rest) :
    (declaration false first tokens).Clean stmt rest ∨
      rest = [] ∧ NeedsSemicolon .declaration (first :: tokens) stmt := by
  rw [declaration, Declarer.clean_ofReader] at clean ⊢
  split at clean
  · rw [clean_behind] at clean ⊢
    exact .inl (classDeclaration_of_trailing clean)
  · rw [clean_behind, clean_map] at clean ⊢
    obtain ⟨function, inner, rfl⟩ := clean
    exact .inl ⟨function, function_of_trailing inner, rfl⟩
  · exact .inl clean
  · refine (statement_of_trailing clean).imp_right fun ⟨ended, needs⟩ => ⟨ended, ?_⟩
    intro semicolon isSemicolon
    obtain ⟨dangling, derived⟩ := needs semicolon isSemicolon
    exact ⟨dangling, .statement derived⟩
termination_by 3 * tokens.length + 4
decreasing_by
  · omega
  · omega
  · simp only [List.length_cons]
    omega

theorem statement_of_trailing {tokens rest : List Token} {stmt : Stmt Unit}
    (clean : (statement true tokens).Clean stmt rest) :
    (statement false tokens).Clean stmt rest ∨
      rest = [] ∧ NeedsSemicolon .statement tokens stmt := by
  match tokens, clean with
  | [], clean =>
      rw [statement] at clean ⊢
      exact expressionStatement_of_trailing clean
  | first :: tokens, clean =>
      rw [statement] at clean ⊢
      split at clean
      · next isFor =>
          rw [clean_behind, clean_andThen] at clean ⊢
          obtain ⟨clauses, middle, shorter, head, body⟩ := clean
          rw [clean_map] at body
          obtain ⟨inner, body, rfl⟩ := body
          have head := loopClauses_of_trailing head
          rcases statement_of_trailing body with closed | ⟨rfl, needs⟩
          · exact .inl ⟨clauses, middle, shorter, head, clean_map.2 ⟨inner, closed, rfl⟩⟩
          · refine .inr ⟨rfl, fun semicolon isSemicolon => ?_⟩
            obtain ⟨dangling, derived⟩ := needs semicolon isSemicolon
            obtain ⟨left, one, two, middle', three, right, rfl, isLeft, before, guard,
              isMiddle, step, isRight⟩ := loopClauses_of_clean head
            rw [← loopTree_eq]
            refine ⟨dangling, ?_⟩
            simpa using Statement.loop isFor isLeft before guard isMiddle step isRight derived
      · next isIf =>
          rw [clean_behind, clean_andThen] at clean ⊢
          obtain ⟨test, middle, shorter, head, body⟩ := clean
          rw [clean_andPerhaps] at body
          obtain ⟨onTrue, middle', shorter', branch, other⟩ := body
          rw [clean_map] at other
          obtain ⟨onFalse, other, rfl⟩ := other
          obtain ⟨left, guard, right, same, isLeft, derived, isRight⟩ := condition_of_clean head
          rcases statement_of_trailing branch with closed | ⟨rfl, needs⟩
          · rcases alternative_of_trailing other with
              whole | ⟨rfl, stmt, rfl, otherwise, others, rfl, isElse, needs⟩
            · left
              refine ⟨test, middle, shorter, head, ?_⟩
              rw [clean_andPerhaps]
              exact ⟨onTrue, middle', shorter', closed, clean_map.2 ⟨onFalse, whole, rfl⟩⟩
            · refine .inr ⟨rfl, fun semicolon isSemicolon => ?_⟩
              obtain ⟨used, dangling, rfl, whole, nearest⟩ := statement_of_clean closed
              obtain ⟨dangling', derived'⟩ := needs semicolon isSemicolon
              -- The branch has left an `else`, so it is none that could take one.
              have notDangling : dangling = false := by
                cases dangling with
                | false => rfl
                | true => exact absurd isElse (nearest rfl otherwise rfl)
              subst notDangling
              refine ⟨dangling', ?_⟩
              rw [same]
              simpa using
                Statement.alternative isIf isLeft derived isRight whole isElse derived'
          · rw [alternative, clean_still] at other
            obtain ⟨rfl, rfl⟩ := other
            refine .inr ⟨rfl, fun semicolon isSemicolon => ?_⟩
            obtain ⟨dangling, derived'⟩ := needs semicolon isSemicolon
            refine ⟨true, ?_⟩
            rw [same]
            simpa using Statement.conditional isIf isLeft derived isRight derived'
      · next isWhile =>
          rw [clean_behind, clean_andThen] at clean ⊢
          obtain ⟨test, middle, shorter, head, body⟩ := clean
          rw [clean_map] at body
          obtain ⟨inner, body, rfl⟩ := body
          rcases statement_of_trailing body with closed | ⟨rfl, needs⟩
          · exact .inl ⟨test, middle, shorter, head, clean_map.2 ⟨inner, closed, rfl⟩⟩
          · refine .inr ⟨rfl, fun semicolon isSemicolon => ?_⟩
            obtain ⟨dangling, derived'⟩ := needs semicolon isSemicolon
            obtain ⟨left, guard, right, rfl, isLeft, derived, isRight⟩ := condition_of_clean head
            refine ⟨dangling, ?_⟩
            simpa using Statement.whileLoop isWhile isLeft derived isRight derived'
      · exact .inl clean
      · rw [clean_behind, clean_map] at clean ⊢
        obtain ⟨statements, inner, rfl⟩ := clean
        exact .inl ⟨statements, block_of_trailing inner, rfl⟩
      · exact .inl clean
      · exact expressionStatement_of_trailing clean
termination_by 3 * tokens.length
decreasing_by all_goals (simp only [List.length_cons] at *; omega)

/-- Of an alternative that needs a semicolon the `else` is there. -/
theorem alternative_of_trailing {tokens rest : List Token} {onFalse : Option (Stmt Unit)}
    (clean : (alternative true tokens).Clean onFalse rest) :
    (alternative false tokens).Clean onFalse rest ∨
      rest = [] ∧ ∃ stmt, onFalse = some stmt ∧ ∃ otherwise others,
        tokens = otherwise :: others ∧ otherwise.kind = .keyword .elseWord ∧
          NeedsSemicolon .statement others stmt := by
  match tokens, clean with
  | [], clean =>
      rw [alternative] at clean ⊢
      exact .inl clean
  | first :: tokens, clean =>
      rw [alternative] at clean ⊢
      split at clean
      · next isElse =>
          rw [if_pos isElse]
          rw [clean_behind, clean_behind, clean_map] at clean ⊢
          obtain ⟨stmt, inner, rfl⟩ := clean
          rcases statement_of_trailing inner with closed | ⟨rfl, needs⟩
          · exact .inl ⟨stmt, closed, rfl⟩
          · exact .inr ⟨rfl, stmt, rfl, first, tokens, rfl, Token.isKeyword_iff.1 isElse, needs⟩
      · next noElse => exact .inl (by rwa [if_neg noElse])
termination_by 3 * tokens.length
decreasing_by
  simp only [List.length_cons]
  omega

theorem block_of_trailing {tokens rest : List Token} {statements : List (Stmt Unit)}
    (clean : (block true tokens).Clean statements rest) :
    (block false tokens).Clean statements rest := by
  match tokens, clean with
  | [], clean =>
      rw [block] at clean ⊢
      exact clean
  | first :: tokens, clean =>
      rw [block] at clean ⊢
      split at clean
      · next isRight => rwa [if_pos isRight]
      · next noRight =>
          rw [if_neg noRight]
          rw [clean_declaration_andThen] at clean ⊢
          obtain ⟨stmt, middle, shorter, others, one, more, rfl⟩ := clean
          rcases declaration_of_trailing one with closed | ⟨rfl, _⟩
          · exact ⟨stmt, middle, shorter, others, closed, block_of_trailing more, rfl⟩
          · rw [block] at more
            exact absurd more not_clean_stopped
termination_by 3 * tokens.length + 2
decreasing_by all_goals (simp only [List.length_cons]; omega)

theorem function_of_trailing {kind : FunctionKind} {tokens rest : List Token}
    {found : FunctionDecl Unit} (clean : (function true kind tokens).Clean found rest) :
    (function false kind tokens).Clean found rest := by
  rw [function, clean_andThen] at clean ⊢
  obtain ⟨head, middle, shorter, first, inner⟩ := clean
  rw [clean_map] at inner
  obtain ⟨statements, inner, rfl⟩ := inner
  exact ⟨head, middle, shorter, first, clean_map.2 ⟨statements, block_of_trailing inner, rfl⟩⟩
termination_by 3 * tokens.length
decreasing_by omega

theorem methods_of_trailing {tokens rest : List Token} {found : List (FunctionDecl Unit)}
    (clean : (methods true tokens).Clean found rest) :
    (methods false tokens).Clean found rest := by
  match tokens, clean with
  | [], clean =>
      rw [methods] at clean ⊢
      exact clean
  | first :: tokens, clean =>
      rw [methods] at clean ⊢
      split at clean
      · next isRight => rwa [if_pos isRight]
      · next noRight =>
          rw [if_neg noRight]
          rw [clean_behind, clean_andPerhaps] at clean ⊢
          obtain ⟨method, middle, shorter, head, more⟩ := clean
          rw [clean_map] at more
          obtain ⟨others, more, rfl⟩ := more
          exact ⟨method, middle, shorter, function_of_trailing head,
            clean_map.2 ⟨others, methods_of_trailing more, rfl⟩⟩
termination_by 3 * tokens.length + 1
decreasing_by
  · omega
  · simp only [List.length_cons] at *
    omega

theorem classDeclaration_of_trailing {tokens rest : List Token} {stmt : Stmt Unit}
    (clean : (classDeclaration true tokens).Clean stmt rest) :
    (classDeclaration false tokens).Clean stmt rest := by
  rw [classDeclaration, clean_andThen] at clean ⊢
  obtain ⟨name, inside, shorter, isName, clean⟩ := clean
  refine ⟨name, inside, shorter, isName, ?_⟩
  rw [clean_andPerhaps] at clean ⊢
  obtain ⟨left, middle, shorter', isLeft, clean⟩ := clean
  refine ⟨left, middle, shorter', isLeft, ?_⟩
  rw [clean_andThen] at clean ⊢
  obtain ⟨members, last, shorter'', inner, closing⟩ := clean
  exact ⟨members, last, shorter'', methods_of_trailing inner, closing⟩
termination_by 3 * tokens.length
decreasing_by omega

end

/-- A program that is read without a fault where its last semicolon may be left off is
read alike where it may not, or becomes a program with one semicolon more. -/
theorem declarations_of_trailing {tokens : List Token} {statements : List (Stmt Unit)}
    (read : declarations true tokens = (statements, [])) :
    declarations false tokens = (statements, []) ∨
      ∀ semicolon : Token, semicolon.kind = .symbol .semicolon →
        ProgramTree (tokens ++ [semicolon]) statements := by
  match tokens, read with
  | [], read =>
      rw [declarations_nil] at read ⊢
      exact .inl read
  | first :: tokens, read =>
      have silent : (declaration true first tokens).notices = [] := by
        rw [declarations_cons] at read
        exact (List.append_eq_nil_iff.1 (congrArg Prod.snd read)).1
      obtain ⟨stmt, clean⟩ : ∃ stmt, (declaration true first tokens).Clean stmt
          (declaration true first tokens).rest := by
        rw [declaration] at silent ⊢
        exact Declarer.exists_clean_of_notices silent
      have shorter := (declaration true first tokens).shorter
      rw [declarations_of_clean clean, Prod.mk.injEq] at read
      obtain ⟨rfl, quiet⟩ := read
      rcases declaration_of_trailing clean with closed | ⟨ended, needs⟩
      · rcases declarations_of_trailing (Prod.ext rfl quiet) with others | others
        · exact .inl (by rw [declarations_of_clean closed, others])
        · refine .inr fun semicolon isSemicolon => ?_
          obtain ⟨used, dangling, same, derived⟩ := declaration_of_clean closed
          rw [same, List.append_assoc]
          exact .cons derived (others semicolon isSemicolon)
      · refine .inr fun semicolon isSemicolon => ?_
        obtain ⟨dangling, derived⟩ := needs semicolon isSemicolon
        rw [ended, declarations_nil, ← List.append_nil (first :: tokens ++ [semicolon])]
        exact .cons derived ⟨[], by simp, rfl, rfl⟩
termination_by tokens.length

/-- Where the last semicolon may be left off, everything is read as it is elsewhere, and
what is read there without an error lacks at most that semicolon. -/
theorem trailing_conservative {tokens : List Token}
    (noMark : ∀ token ∈ tokens, token.isEnd = false) :
    ((Program.ofTokens false tokens).errors = [] →
      Program.ofTokens true tokens = Program.ofTokens false tokens) ∧
    ((Program.ofTokens true tokens).errors = [] →
      Program.ofTokens false tokens = Program.ofTokens true tokens ∨
        ∀ semicolon : Token, semicolon.kind = .symbol .semicolon →
          Program.ofTokens false (tokens ++ [semicolon]) = Program.ofTokens true tokens) := by
  have own := beforeEnd_eq_self noMark
  constructor
  · intro quiet
    have tree := programTree_of_quiet (errors_ofTokens_eq_nil.1 quiet)
    rw [Program.ofTokens_eq, Program.ofTokens_eq, tree.declarations_eq true, tree.declarations_eq false]
  · intro quiet
    have read : declarations true tokens = ((Program.ofTokens true tokens).statements, []) := by
      rw [Program.ofTokens_eq, own]
      refine Prod.ext rfl ?_
      rw [Program.ofTokens_eq, own] at quiet
      exact List.map_eq_nil_iff.1 quiet
    have program : Program.ofTokens true tokens =
        ⟨(Program.ofTokens true tokens).statements, []⟩ := by
      rw [← quiet]
    rw [program]
    refine (declarations_of_trailing read).imp (fun closed => ?_)
      fun tree semicolon isSemicolon => ?_
    · rw [Program.ofTokens_eq, own, closed]
      rfl
    · have noMore : ∀ token ∈ tokens ++ [semicolon], token.isEnd = false := by
        refine List.forall_mem_append.2 ⟨noMark, List.forall_mem_singleton.2 ?_⟩
        simp [Token.isEnd, isSemicolon]
      rw [Program.ofTokens_eq, beforeEnd_eq_self noMore,
        (tree semicolon isSemicolon).declarations_eq false]
      rfl

/-- A conditional whose other statement has no semicolon. -/
def unclosedAlternative : List Token :=
  openConditional ++ [⟨.keyword .elseWord, "else", 2⟩, ⟨.identifier, "a", 2⟩]

/-- The other statement of the conditional goes without its semicolon in one mode only,
and is read as it is with the semicolon. -/
theorem unclosedAlternative_trailing :
    (∀ token ∈ unclosedAlternative, token.isEnd = false) ∧
    (Program.ofTokens true unclosedAlternative).errors = [] ∧
    (Program.ofTokens false unclosedAlternative).errors =
      [.grammatical .expressionNotClosed (.atEnd 2)] ∧
    Program.ofTokens false (unclosedAlternative ++ [⟨.symbol .semicolon, ";", 2⟩]) =
      Program.ofTokens true unclosedAlternative ∧
    Program.ofTokens true (unclosedAlternative ++ [⟨.symbol .semicolon, ";", 2⟩]) =
      Program.ofTokens false (unclosedAlternative ++ [⟨.symbol .semicolon, ";", 2⟩]) := by
  have noMark : ∀ token ∈ unclosedAlternative, token.isEnd = false := by decide
  have quiet : (Program.ofTokens true unclosedAlternative).errors = [] := by decide +kernel
  have faulty : (Program.ofTokens false unclosedAlternative).errors =
      [.grammatical .expressionNotClosed (.atEnd 2)] := by decide +kernel
  have closed : Program.ofTokens false (unclosedAlternative ++ [⟨.symbol .semicolon, ";", 2⟩]) =
      Program.ofTokens true unclosedAlternative := by
    rcases (trailing_conservative noMark).2 quiet with same | closed
    · rw [same, quiet] at faulty
      cases faulty
    · exact closed _ rfl
  refine ⟨noMark, quiet, faulty, closed, (trailing_conservative (by decide)).1 ?_⟩
  rw [closed, quiet]

end Lox.Grammar
