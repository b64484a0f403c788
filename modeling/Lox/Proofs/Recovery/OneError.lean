/-
# How many errors a missing semicolon gives

For every phrase that the grammar derives this module shows what its reading comes to if
one of its semicolons is left out (`Statement.omits`), and from that how many errors a
whole program has without the semicolon behind one of its statements
(`errors_without_semicolon`): one, and those of the program in which the semicolon is
there and an empty block stands in place of the tokens that are skipped.

So it is exactly one error if and only if that program has none, which is always so at
the end of input.  It is not always so in front of a closing brace or of a word that
starts a statement, because this token is skipped although the reading could have gone on
with it.
-/

import Lox.Proofs.Recovery.Omission

namespace Lox.Grammar

open Reader

/-! ## Simple statements -/

namespace FollowsStatement

variable {rest : List Token} (follows : FollowsStatement rest)

include follows

theorem outcome_expressionUnless {symbol : Symbol} (other : symbol ≠ .rightBrace) :
    (expressionUnless symbol rest).outcome = .stuck [] .noExpression rest := by
  have stuck := congrArg (Outcome.map some) follows.outcome_expression
  cases rest with
  | nil =>
      rw [expressionUnless, outcome_behind, outcome_map, stuck]
      rfl
  | cons first rest =>
      rw [expressionUnless, follows.isSymbol_eq_false other, if_neg Bool.false_ne_true,
        outcome_behind, outcome_map, stuck]
      rfl

theorem outcome_expressionStatement {tokens : List Token} {expr : Expr Unit}
    (derived : Expression .assignment tokens expr) :
    (expressionStatement false (tokens ++ rest)).outcome =
      .stuck [] .expressionNotClosed rest := by
  have notClosed : (expect (·.isSymbol .semicolon) .expressionNotClosed rest).outcome =
      .stuck [] .expressionNotClosed rest := follows.outcome_expect (by decide) _
  rw [expressionStatement, outcome_andPerhaps, (derived.clean follows.ends).outcome_eq,
    Outcome.bind_done, Bool.false_and, if_neg Bool.false_ne_true, outcome_behind, outcome_map,
    notClosed]
  rfl

theorem outcome_returnStatement {tokens : List Token} {value : Option (Expr Unit)}
    (derived : OptionalExpression tokens value) (keyword : Token) :
    ∃ fault, (returnStatement keyword (tokens ++ rest)).outcome = .stuck [] fault rest := by
  cases derived with
  | absent =>
      refine ⟨.noExpression, ?_⟩
      rw [List.nil_append, returnStatement, outcome_andThen,
        follows.outcome_expressionUnless (by decide)]
      rfl
  | present whole =>
      have clean := whole.clean follows.ends
      obtain ⟨first, others, rfl, starts⟩ := whole.starts
      have noSemicolon : ¬ first.isSymbol .semicolon = true :=
        fun same => starts.not_symbol (Token.isSymbol_iff.1 same) (by decide)
      refine ⟨.returnNotClosed, ?_⟩
      rw [returnStatement, outcome_andThen, List.cons_append, expressionUnless, if_neg noSemicolon,
        outcome_behind, outcome_map, ← List.cons_append, clean.outcome_eq]
      simp only [Outcome.map, Outcome.bind_done, outcome_map]
      rw [follows.outcome_expect (by decide)]

theorem outcome_initialValue : (initialValue rest).outcome = .stuck [] .variableNotClosed rest := by
  cases rest with
  | nil => rw [initialValue, outcome_stopped]
  | cons first rest =>
      have noEqual : first.isSymbol .equal = false := follows.isSymbol_eq_false (by decide)
      rw [initialValue, noEqual, if_neg Bool.false_ne_true, outcome_map,
        follows.outcome_expect (by decide)]
      rfl

end FollowsStatement

section

variable {semicolon : Token} (isSemicolon : semicolon.kind = .symbol .semicolon)
  {tokens front more rest : List Token} (follows : FollowsStatement (more ++ rest))

/-- A statement of which the last token is left out is stopped where that token was. -/
theorem Statement.omission_stopped {stmt : Stmt Unit} {dangling : Bool}
    (derived : Statement .statement (front ++ [semicolon]) stmt dangling) {fault : SyntaxFault}
    (stuck : (Lox.statement false (front ++ rest)).outcome = .stuck [] fault rest) :
    Omission rest (Lox.statement false (front ++ rest)).outcome
      (Lox.statement false (front ++ semicolon :: restarted rest)).outcome := by
  have reads : Form.Reads false .statement (front ++ [semicolon]) stmt dangling := derived.reads
  have clean := reads (restarted rest) fun _ => noElse_restarted rest
  rw [List.append_assoc, List.cons_append, List.nil_append] at clean
  exact .stopped fault stmt stuck clean.outcome_eq

include isSemicolon follows

theorem VariableDeclaration.omission {stmt : Stmt Unit}
    (derived : VariableDeclaration tokens stmt) (same : tokens = front ++ semicolon :: more) :
    ∃ first before, front = first :: before ∧ first.kind = .keyword .varWord ∧
      Omission (more ++ rest) (varDeclaration (before ++ (more ++ rest))).outcome
        (varDeclaration (before ++ semicolon :: restarted (more ++ rest))).outcome := by
  cases derived with
  | @bare opening name last isVar isName isLast =>
      have others := (noSemicolon_nil.cons isName (by simp)).cons isVar (by simp)
      obtain ⟨rfl, rfl, rfl⟩ := others.last isSemicolon same
      rw [List.nil_append] at follows ⊢
      have whole := (VariableDeclaration.bare isVar isName isLast).clean (restarted rest)
      have found : (expect Token.isIdentifier .noVariableName (name :: rest)).Clean name rest :=
        clean_expect_identifier isName
      refine ⟨opening, [name], rfl, isVar, .stopped .variableNotClosed _ ?_ whole.outcome_eq⟩
      rw [List.cons_append, List.nil_append, varDeclaration, outcome_andThen, found.outcome_eq,
        Outcome.bind_done, outcome_map, follows.outcome_initialValue]
      rfl
  | @initialized opening name equals last tokens value isVar isName isEqual source isLast =>
      have others := ((source.noSemicolon.cons isEqual (by simp)).cons isName (by simp)).cons isVar
        (by simp)
      obtain ⟨rfl, rfl, rfl⟩ := others.last isSemicolon same
      rw [List.nil_append] at follows ⊢
      have whole := (VariableDeclaration.initialized isVar isName isEqual source isLast).clean
        (restarted rest)
      rw [List.cons_append, List.cons_append, List.append_assoc] at whole
      have found : (expect Token.isIdentifier .noVariableName
          (name :: equals :: (tokens ++ rest))).Clean name (equals :: (tokens ++ rest)) :=
        clean_expect_identifier isName
      refine ⟨opening, name :: equals :: tokens, rfl, isVar,
        .stopped .variableNotClosed _ ?_ whole.outcome_eq⟩
      rw [List.cons_append, List.cons_append, varDeclaration, outcome_andThen, found.outcome_eq,
        Outcome.bind_done, outcome_map, initialValue, if_pos (Token.isSymbol_iff.2 isEqual),
        outcome_behind, follows.outcome_expression_expect source]
      rfl

/-! ## Statements with statements in them -/

omit follows in
/-- No semicolon stands in front of the body of a conditional or a loop with a condition. -/
theorem skip_condition {opening left right : Token} {guard : List Token} {condition : Expr Unit}
    (notOpening : opening.kind ≠ .symbol .semicolon) (isLeft : left.kind = .symbol .leftParen)
    (test : Expression .assignment guard condition) (isRight : right.kind = .symbol .rightParen)
    (same : opening :: left :: (guard ++ right :: tokens) = front ++ semicolon :: more) :
    ∃ before, front = opening :: left :: (guard ++ right :: before) ∧
      tokens = before ++ semicolon :: more := by
  have closing := noSemicolon_append.2
    ⟨test.noSemicolon, noSemicolon_nil.cons isRight (by simp)⟩
  have head := (closing.cons isLeft (by simp)).cons rfl notOpening
  obtain ⟨before, rfl, found⟩ := head.skip isSemicolon (by simpa using same)
  exact ⟨before, by simp, found⟩

end

/-- An optional clause of a loop and what closes it do not follow a statement. -/
theorem OptionalExpression.not_follows {tokens rest : List Token} {value : Option (Expr Unit)}
    (derived : OptionalExpression tokens value) {token : Token} {symbol : Symbol}
    (same : token.kind = .symbol symbol) (other : symbol ≠ .rightBrace) :
    ¬ FollowsStatement (tokens ++ token :: rest) := by
  intro follows
  cases derived with
  | absent => exact follows.not_symbol other same
  | present whole =>
      obtain ⟨first, _, rfl, starts⟩ := whole.starts
      exact follows.not_starts starts

/-- The semicolons of the clauses of a loop are not in front of what follows a statement. -/
theorem skip_clauses {semicolon : Token} (isSemicolon : semicolon.kind = .symbol .semicolon)
    {opening left middle right : Token} {first second third tokens front more rest : List Token}
    {initializer : Option (Stmt Unit)} {condition increment : Option (Expr Unit)}
    (isFor : opening.kind = .keyword .forWord) (isLeft : left.kind = .symbol .leftParen)
    (one : Initializer first initializer) (two : OptionalExpression second condition)
    (isMiddle : middle.kind = .symbol .semicolon) (three : OptionalExpression third increment)
    (isRight : right.kind = .symbol .rightParen)
    (same : opening :: left :: (first ++ second ++ middle :: (third ++ right :: tokens)) =
      front ++ semicolon :: more)
    (follows : FollowsStatement (more ++ rest)) :
    ∃ before, front = opening :: left :: (first ++ second ++ middle :: (third ++ right :: before)) ∧
      tokens = before ++ semicolon :: more := by
  have opened := (noSemicolon_nil.cons isLeft (by simp)).cons isFor (by simp)
  have closing := noSemicolon_append.2
    ⟨three.noSemicolon, noSemicolon_nil.cons isRight (by simp)⟩
  obtain ⟨clauses, rfl, inClauses⟩ : ∃ clauses, front = [opening, left] ++ clauses ∧
      first ++ (second ++ middle :: (third ++ right :: tokens)) = clauses ++ semicolon :: more := by
    exact opened.skip isSemicolon (by simpa using same)
  rcases append_eq_around inClauses with ⟨behind, inFirst, rfl⟩ | ⟨clauses, rfl, behindFirst⟩
  · obtain ⟨before, last, rfl, none⟩ := one.last
    obtain ⟨-, -, rfl⟩ := none.last isSemicolon inFirst
    rw [List.nil_append, List.append_assoc] at follows
    exact (two.not_follows isMiddle (by decide) follows).elim
  · obtain ⟨clauses, rfl, behindSecond⟩ := two.noSemicolon.skip isSemicolon behindFirst
    cases clauses with
    | nil =>
        cases behindSecond
        rw [List.append_assoc] at follows
        exact (three.not_follows isRight (by decide) follows).elim
    | cons _ clauses =>
        obtain ⟨rfl, behindMiddle⟩ := List.cons.inj behindSecond
        obtain ⟨before, rfl, found⟩ := closing.skip isSemicolon (by simpa using behindMiddle)
        exact ⟨before, by simp, found⟩

/-- The statement behind a condition is the only one that a conditional has, or the first. -/
theorem outcome_conditional {opening left right : Token} {guard : List Token}
    {condition : Expr Unit} (isIf : opening.kind = .keyword .ifWord)
    (isLeft : left.kind = .symbol .leftParen) (test : Expression .assignment guard condition)
    (isRight : right.kind = .symbol .rightParen) (before tail : List Token) :
    (Lox.statement false (opening :: left :: (guard ++ right :: before) ++ tail)).outcome =
      (Lox.statement false (before ++ tail)).outcome.bind fun onTrue rest =>
        (Lox.alternative false rest).outcome.map (Stmt.conditional condition onTrue) := by
  have head := condition_clean .noIfCondition .ifConditionNotClosed isLeft test isRight
    (before ++ tail)
  have tokens : opening :: left :: (guard ++ right :: before) ++ tail =
      opening :: left :: (guard ++ right :: (before ++ tail)) := by
    simp
  rw [tokens, Lox.statement]
  simp only [isIf, outcome_behind]
  rw [outcome_andThen, head.outcome_eq, Outcome.bind_done, outcome_andPerhaps]
  simp only [outcome_map]

/-- An omission in the first statement of a conditional. -/
theorem omission_onTrue {behind : List Token} {without whole : Outcome (Stmt Unit)}
    (omission : Omission behind without whole) (condition : Expr Unit) :
    Omission behind
      (without.bind fun onTrue rest =>
        (Lox.alternative false rest).outcome.map (Stmt.conditional condition onTrue))
      (whole.bind fun onTrue rest =>
        (Lox.alternative false rest).outcome.map (Stmt.conditional condition onTrue)) := by
  refine omission.bind _ (fun value other rest => by simp) fun onTrue => ?_
  refine ⟨Stmt.conditional condition onTrue none, ?_⟩
  rw [restarted, emptyBlock, List.cons_append, Lox.alternative, if_neg (by decide)]
  rfl

/-- The first statement of a conditional is read in front of the `else`, and then the other. -/
theorem outcome_onFalse {tokens : List Token} {onTrue : Stmt Unit} {otherwise : Token}
    (branch : Statement .statement tokens onTrue false)
    (isElse : otherwise.kind = .keyword .elseWord) {condition : Expr Unit}
    (before tail : List Token) :
    ((Lox.statement false (tokens ++ otherwise :: before ++ tail)).outcome.bind fun onTrue rest =>
      (Lox.alternative false rest).outcome.map (Stmt.conditional condition onTrue)) =
        ((Lox.statement false (before ++ tail)).outcome.map some).map
          (Stmt.conditional condition onTrue) := by
  have reads : Form.Reads false .statement tokens onTrue false := branch.reads
  have clean := reads (otherwise :: (before ++ tail)) (by simp)
  rw [List.append_assoc, List.cons_append, clean.outcome_eq, Outcome.bind_done,
    Lox.alternative, if_pos (Token.isKeyword_iff.2 isElse), outcome_behind, outcome_behind,
    outcome_map]

theorem outcome_whileLoop {opening left right : Token} {guard : List Token}
    {condition : Expr Unit} (isWhile : opening.kind = .keyword .whileWord)
    (isLeft : left.kind = .symbol .leftParen) (test : Expression .assignment guard condition)
    (isRight : right.kind = .symbol .rightParen) (before tail : List Token) :
    (Lox.statement false (opening :: left :: (guard ++ right :: before) ++ tail)).outcome =
      (Lox.statement false (before ++ tail)).outcome.map (.whileLoop condition) := by
  have head := condition_clean .noWhileCondition .whileConditionNotClosed isLeft test isRight
    (before ++ tail)
  have tokens : opening :: left :: (guard ++ right :: before) ++ tail =
      opening :: left :: (guard ++ right :: (before ++ tail)) := by
    simp
  rw [tokens, Lox.statement]
  simp only [isWhile, outcome_behind]
  rw [outcome_andThen, head.outcome_eq, Outcome.bind_done, outcome_map]

theorem outcome_loop {opening left middle right : Token} {first second third : List Token}
    {initializer : Option (Stmt Unit)} {condition increment : Option (Expr Unit)}
    (isFor : opening.kind = .keyword .forWord) (isLeft : left.kind = .symbol .leftParen)
    (one : Initializer first initializer) (two : OptionalExpression second condition)
    (isMiddle : middle.kind = .symbol .semicolon) (three : OptionalExpression third increment)
    (isRight : right.kind = .symbol .rightParen) (before tail : List Token) :
    (Lox.statement false (opening :: left ::
      (first ++ second ++ middle :: (third ++ right :: before)) ++ tail)).outcome =
        (Lox.statement false (before ++ tail)).outcome.map
          (loopWithClauses initializer condition increment) := by
  have head := loopClauses_clean false isLeft one two isMiddle three isRight (before ++ tail)
  have tokens : opening :: left ::
      (first ++ second ++ middle :: (third ++ right :: before)) ++ tail = opening :: left ::
        (first ++ (second ++ middle :: (third ++ right :: (before ++ tail)))) := by
    simp
  rw [tokens, Lox.statement]
  simp only [isFor, outcome_behind]
  rw [outcome_andThen, head.outcome_eq, Outcome.bind_done, outcome_map]

theorem outcome_blockStatement {left : Token} (isLeft : left.kind = .symbol .leftBrace)
    (tail : List Token) :
    (Lox.statement false (left :: tail)).outcome = (Lox.block false tail).outcome.map .block := by
  rw [Lox.statement]
  simp only [isLeft, outcome_behind, outcome_map]

theorem outcome_function {kind : FunctionKind} {name left right opening : Token}
    {inside parameters : List Token} (isName : name.kind = .identifier)
    (isLeft : left.kind = .symbol .leftParen)
    (separated : Separated (parameters.map fun parameter => [parameter]) inside)
    (areNames : ∀ parameter ∈ parameters, parameter.kind = .identifier)
    (few : parameters.length ≤ 8) (isRight : right.kind = .symbol .rightParen)
    (isOpening : opening.kind = .symbol .leftBrace) (before tail : List Token) :
    (Lox.function false kind
      (name :: left :: (inside ++ [right, opening]) ++ before ++ tail)).outcome =
        (Lox.block false (before ++ tail)).outcome.map (.mk name parameters) := by
  have head := functionHead_clean kind isName isLeft separated areNames few isRight isOpening
    (before ++ tail)
  have tokens : name :: left :: (inside ++ [right, opening]) ++ before ++ tail =
      name :: left :: (inside ++ right :: opening :: (before ++ tail)) := by
    simp
  rw [tokens, Lox.function, outcome_andThen, head.outcome_eq, Outcome.bind_done, outcome_map]

theorem outcome_classDeclaration {name left : Token} (isName : name.kind = .identifier)
    (isLeft : left.kind = .symbol .leftBrace) (tail : List Token) :
    (classDeclaration false (name :: left :: tail)).outcome =
      (Lox.methods false tail).outcome.bind fun methods rest =>
        (expect (·.isSymbol .rightBrace) .classBodyNotClosed rest).outcome.map fun _ =>
          Stmt.classDecl name methods := by
  rw [classDeclaration, outcome_andThen, (clean_expect_identifier isName).outcome_eq,
    Outcome.bind_done, outcome_andPerhaps, (clean_expect_symbol isLeft).outcome_eq,
    Outcome.bind_done, outcome_andThen]
  simp only [outcome_map]

theorem outcome_methods {first : Token} (noRight : ¬ first.isSymbol .rightBrace = true)
    (rest : List Token) :
    (Lox.methods false (first :: rest)).outcome =
      (Lox.function false .method (first :: rest)).outcome.bind fun method rest =>
        (Lox.methods false rest).outcome.map (method :: ·) := by
  rw [Lox.methods, if_neg noRight, outcome_behind, outcome_andPerhaps]
  simp only [outcome_map]

/-- A semicolon is left out of the methods of a class. -/
theorem methods_later {semicolon : Token} (isSemicolon : semicolon.kind = .symbol .semicolon)
    {rows : List (List Token × FunctionDecl Unit)}
    (derived : ∀ row ∈ rows, Statement .function row.1 (.funDecl row.2) false)
    (omits : ∀ row ∈ rows, Form.Omits semicolon .function row.1) {front more rest : List Token}
    (same : (rows.map Prod.fst).flatten = front ++ semicolon :: more)
    (follows : FollowsStatement (more ++ rest)) :
    Later (more ++ rest) (Lox.methods false (front ++ (more ++ rest))).outcome
      (Lox.methods false (front ++ semicolon :: restarted (more ++ rest))).outcome := by
  induction rows generalizing front with
  | nil =>
      have lengths := congrArg List.length same
      simp at lengths
  | cons row rows ih =>
      obtain ⟨first, taken, found, isName⟩ := (derived row List.mem_cons_self).starts
      have isName : first.kind = .identifier := isName
      have noRight : ¬ first.isSymbol .rightBrace = true := by simp [Token.isSymbol, isName]
      rw [List.map_cons, List.flatten_cons] at same
      rcases append_eq_around same with ⟨left, inRow, rfl⟩ | ⟨left, rfl, inRows⟩
      · rw [List.append_assoc] at follows ⊢
        have later := omits row List.mem_cons_self .method _ _ _ inRow follows
        rw [found] at inRow
        obtain ⟨before, rfl, -⟩ := skip_token isSemicolon (by simp [isName]) inRow
        rw [List.cons_append, List.cons_append, outcome_methods noRight, outcome_methods noRight]
        exact later.bind _ fun value other rest => by simp
      · have reads : Form.Reads false .function row.1 (.funDecl row.2) false :=
          (derived row List.mem_cons_self).reads
        obtain ⟨function, -, reads⟩ := reads
        have goesOn (behind : List Token) :
            (Lox.methods false (row.1 ++ left ++ behind)).outcome =
              (Lox.methods false (left ++ behind)).outcome.map (function :: ·) := by
          have clean := (reads .method (left ++ behind)).outcome_eq
          rw [found, List.cons_append] at clean
          rw [found, List.append_assoc, List.cons_append, outcome_methods noRight, clean,
            Outcome.bind_done]
        rw [goesOn, goesOn]
        exact (ih (fun other member => derived other (List.mem_cons_of_mem _ member))
          (fun other member => omits other (List.mem_cons_of_mem _ member)) inRows).map _

/-- Whatever the grammar derives, the functions of its form read it as an omission if one of
its semicolons is left out in front of what could follow a statement. -/
theorem Statement.omits {semicolon : Token} (isSemicolon : semicolon.kind = .symbol .semicolon)
    {form : Form} {tokens : List Token} {stmt : Stmt Unit} {dangling : Bool}
    (derived : Statement form tokens stmt dangling) : form.Omits semicolon tokens := by
  -- Either the semicolon is the last token, and the statement is stopped where it was, or it is
  -- in one of the parts, in front of which both readings are the same.
  induction derived with
  | @classDecl opening name left right tokens rows isClass isName isLeft derived joined isRight
      ih =>
      intro front more rest same follows
      have head := ((noSemicolon_nil.cons isLeft (by simp)).cons isName (by simp)).cons isClass
        (by simp)
      obtain ⟨before, rfl, inBraces⟩ : ∃ before, front = [opening, name, left] ++ before ∧
          tokens ++ [right] = before ++ semicolon :: more := head.skip isSemicolon same
      obtain ⟨behind, inMethods, rfl⟩ :=
        in_front_of_last isSemicolon (by simp [isRight]) inBraces
      refine ⟨opening, name :: left :: before, rfl, ?_⟩
      rw [Lox.declaration, Lox.declaration]
      simp only [isClass]
      apply Omission.declared
      rw [outcome_behind, outcome_behind, List.cons_append, List.cons_append, List.cons_append,
        List.cons_append, outcome_classDeclaration isName isLeft,
        outcome_classDeclaration isName isLeft]
      rw [List.append_assoc] at follows ⊢
      rw [joined] at inMethods
      exact .later ((methods_later isSemicolon derived ih inMethods follows).bind _
        fun value other rest => by simp)
  | @funDecl opening tokens stmt isFun _ ih =>
      intro front more rest same follows
      obtain ⟨before, rfl, found⟩ := skip_token isSemicolon (by simp [isFun]) same
      refine ⟨opening, before, rfl, ?_⟩
      rw [Lox.declaration, Lox.declaration]
      simp only [isFun]
      apply Omission.declared
      simp only [outcome_behind, outcome_map]
      exact .later ((ih .function _ _ _ found follows).map _)
  | varDecl whole =>
      intro front more rest same follows
      obtain ⟨first, before, rfl, isVar, omission⟩ := whole.omission isSemicolon follows same
      refine ⟨first, before, rfl, ?_⟩
      rw [Lox.declaration, Lox.declaration]
      simp only [isVar]
      apply Omission.declared
      simpa only [outcome_behind] using omission
  | statement derived ih =>
      intro front more rest same follows
      have omission := ih front more rest same follows
      obtain ⟨first, others, rfl, starts⟩ := derived.starts
      obtain ⟨before, rfl, -⟩ :=
        skip_token isSemicolon (StartsDeclaration.not_semicolon (.inl starts)) same
      refine ⟨first, before, rfl, ?_⟩
      rw [declaration_of_startsStatement starts, declaration_of_startsStatement starts]
      exact omission.declared
  | @function name left right opening closing inside tokens parameters rows isName isLeft separated
      areNames few isRight isOpening derived joined isClosing ih =>
      intro kind front more rest same follows
      have none := separated.noSemicolon (List.forall_mem_map.2 fun parameter member =>
        noSemicolon_nil.cons (areNames parameter member) (by simp))
      have closing := noSemicolon_append.2
        ⟨none, (noSemicolon_nil.cons isOpening (by simp)).cons isRight (by simp)⟩
      have head := (closing.cons isLeft (by simp)).cons isName (by simp)
      obtain ⟨before, rfl, inBraces⟩ := head.skip isSemicolon (by simpa using same)
      rw [joined] at inBraces
      rw [outcome_function isName isLeft separated areNames few isRight isOpening,
        outcome_function isName isLeft separated areNames few isRight isOpening]
      exact (block_later isSemicolon derived ih isClosing inBraces follows).map _
  | expression whole =>
      intro front more rest same follows
      obtain @⟨tokens, expr, last, whole, isLast⟩ := whole
      obtain ⟨rfl, rfl, rfl⟩ := whole.noSemicolon.last isSemicolon same
      rw [List.nil_append] at follows ⊢
      apply Statement.omission_stopped (.expression (.intro whole isLast))
      have stuck := follows.outcome_expressionStatement whole
      obtain ⟨first, others, rfl, starts⟩ := whole.starts
      rwa [List.cons_append, statement_of_startsExpression starts]
  | @loop opening left middle right first second third tokens initializer condition increment body
      dangling isFor isLeft one two isMiddle three isRight _ ih =>
      intro front more rest same follows
      obtain ⟨before, rfl, found⟩ := skip_clauses isSemicolon isFor isLeft one two isMiddle three
        isRight same follows
      rw [outcome_loop isFor isLeft one two isMiddle three isRight,
        outcome_loop isFor isLeft one two isMiddle three isRight]
      exact (ih _ _ _ found follows).map _
  | @conditional opening left right guard tokens condition onTrue dangling isIf isLeft test isRight
      _ ih =>
      intro front more rest same follows
      obtain ⟨before, rfl, found⟩ := skip_condition isSemicolon (by simp [isIf]) isLeft test isRight
        same
      rw [outcome_conditional isIf isLeft test isRight,
        outcome_conditional isIf isLeft test isRight]
      exact omission_onTrue (ih _ _ _ found follows) condition
  | @alternative opening left right otherwise guard tokens others condition onTrue onFalse dangling
      isIf isLeft test isRight branch isElse _ ih ih' =>
      intro front more rest same follows
      obtain ⟨before, rfl, found⟩ := skip_condition isSemicolon (by simp [isIf]) isLeft test isRight
        same
      rw [outcome_conditional isIf isLeft test isRight,
        outcome_conditional isIf isLeft test isRight]
      rcases append_eq_around found with ⟨behind, inBranch, rfl⟩ | ⟨behind, rfl, inOther⟩
      · rw [List.append_assoc] at follows ⊢
        exact omission_onTrue (ih _ _ _ inBranch follows) condition
      · obtain ⟨before, rfl, inOthers⟩ := skip_token isSemicolon (by simp [isElse]) inOther
        rw [outcome_onFalse branch isElse, outcome_onFalse branch isElse]
        exact ((ih' _ _ _ inOthers follows).map _).map _
  | @print opening last tokens expr isPrint whole isLast =>
      intro front more rest same follows
      have others := whole.noSemicolon.cons isPrint (by simp)
      obtain ⟨rfl, rfl, rfl⟩ := others.last isSemicolon same
      rw [List.nil_append] at follows ⊢
      apply Statement.omission_stopped (.print isPrint whole isLast)
      rw [List.cons_append, Lox.statement]
      simp only [isPrint, outcome_behind]
      rw [printStatement]
      exact follows.outcome_expression_expect whole .printNotClosed fun expr _ => Stmt.print expr
  | @returning opening last tokens value isReturn whole isLast =>
      intro front more rest same follows
      have others := whole.noSemicolon.cons isReturn (by simp)
      obtain ⟨rfl, rfl, rfl⟩ := others.last isSemicolon same
      rw [List.nil_append] at follows ⊢
      obtain ⟨fault, stuck⟩ := follows.outcome_returnStatement whole opening
      apply Statement.omission_stopped (.returning isReturn whole isLast)
      rw [List.cons_append, Lox.statement]
      simp only [isReturn]
      exact stuck
  | @whileLoop opening left right guard tokens condition body dangling isWhile isLeft test isRight _
      ih =>
      intro front more rest same follows
      obtain ⟨before, rfl, found⟩ := skip_condition isSemicolon (by simp [isWhile]) isLeft test
        isRight same
      rw [outcome_whileLoop isWhile isLeft test isRight,
        outcome_whileLoop isWhile isLeft test isRight]
      exact (ih _ _ _ found follows).map _
  | @block left right tokens rows isLeft derived joined isRight ih =>
      intro front more rest same follows
      obtain ⟨before, rfl, inBraces⟩ := skip_token isSemicolon (by simp [isLeft]) same
      rw [joined] at inBraces
      rw [List.cons_append, List.cons_append, outcome_blockStatement isLeft,
        outcome_blockStatement isLeft]
      exact .later ((block_later isSemicolon derived ih isRight inBraces follows).map _)

/-! ## Programs -/

/-- A program loses the semicolon of a statement: one fault is noticed at the token that
follows, and then what is noticed in the program with an empty block in place of the tokens
that are skipped. -/
theorem ProgramTree.notices_omitted {semicolon : Token}
    (isSemicolon : semicolon.kind = .symbol .semicolon) {front behind : List Token}
    {statements : List (Stmt Unit)} (tree : ProgramTree (front ++ semicolon :: behind) statements)
    (follows : FollowsStatement behind) :
    ∃ fault, (declarations false (front ++ behind)).2 =
      ⟨fault, behind.head?⟩ ::
        (declarations false (front ++ semicolon :: restarted behind)).2 := by
  obtain ⟨body, derived, joined, -⟩ := tree
  have omits : ∀ row ∈ body, Form.Omits semicolon .declaration row.1 :=
    fun row member => (derived row member).omits isSemicolon
  have same : Body.tokens body = front ++ semicolon :: behind := joined.symm
  rw [← List.append_nil behind] at follows
  obtain ⟨fault, found⟩ := goesOn_declarations.body isSemicolon derived omits same follows
  rw [List.append_nil] at found
  injection found with _ noticed
  exact ⟨fault, noticed⟩

theorem isEnd_of_mem_resume {tokens : List Token} {token : Token}
    (member : token ∈ resume (beforeEnd tokens)) : token.isEnd = false :=
  isEnd_of_mem_beforeEnd ((resume_suffix _).subset member)

theorem beforeEnd_restarted {semicolon : Token} (isSemicolon : semicolon.kind = .symbol .semicolon)
    {front : List Token} (noMark : ∀ token ∈ front, token.isEnd = false) (behind : List Token) :
    beforeEnd (front ++ semicolon :: restarted (beforeEnd behind)) =
      front ++ semicolon :: restarted (beforeEnd behind) := by
  have block : ∀ token ∈ emptyBlock, token.isEnd = false := by decide
  apply beforeEnd_eq_self
  refine List.forall_mem_append.2 ⟨noMark, List.forall_mem_cons.2 ⟨?_, ?_⟩⟩
  · simp [Token.isEnd, isSemicolon]
  · exact List.forall_mem_append.2 ⟨block, fun token member => isEnd_of_mem_resume member⟩

/-- Tokens that are read without an error lose the semicolon behind a statement, in front of a
closing brace, of a word that starts a statement, or of the end.  The first error is one at
the token that follows.  The others are those of the tokens with the semicolon and an empty
block in place of what is skipped: there is exactly one error if and only if these have none,
and so there is exactly one at the end of input. -/
theorem errors_without_semicolon {semicolon : Token}
    (isSemicolon : semicolon.kind = .symbol .semicolon) {front behind : List Token}
    (noMark : ∀ token ∈ front, token.isEnd = false)
    (quiet : (Program.ofTokens false (front ++ semicolon :: behind)).errors = [])
    (follows : FollowsStatement (beforeEnd behind)) :
    (∃ fault, (Program.ofTokens false (front ++ behind)).errors =
      .grammatical fault ((beforeEnd behind).head?.getD (.atEnd (endLine (front ++ behind)))) ::
        (declarations false (front ++ semicolon :: restarted (beforeEnd behind))).2.map
          (Notice.error (endLine (front ++ behind)))) ∧
    ((Program.ofTokens false (front ++ behind)).errors.length = 1 ↔
      (Program.ofTokens false (front ++ semicolon :: restarted (beforeEnd behind))).errors = []) ∧
    (beforeEnd behind = [] → (Program.ofTokens false (front ++ behind)).errors.length = 1) := by
  have inFront : beforeEnd (front ++ semicolon :: behind) =
      front ++ semicolon :: beforeEnd behind := by
    rw [beforeEnd_append noMark, beforeEnd, List.takeWhile_cons_of_pos]
    · rfl
    · simp [Token.isEnd, isSemicolon]
  have tree := programTree_of_quiet (errors_ofTokens_eq_nil.1 quiet)
  rw [inFront] at tree
  obtain ⟨fault, noticed⟩ := tree.notices_omitted isSemicolon follows
  have errors : (Program.ofTokens false (front ++ behind)).errors =
      .grammatical fault ((beforeEnd behind).head?.getD (.atEnd (endLine (front ++ behind)))) ::
        (declarations false (front ++ semicolon :: restarted (beforeEnd behind))).2.map
          (Notice.error (endLine (front ++ behind))) := by
    have all : (Program.ofTokens false (front ++ behind)).errors =
        (declarations false (beforeEnd (front ++ behind))).2.map
          (Notice.error (endLine (front ++ behind))) := rfl
    rw [all, beforeEnd_append noMark, noticed]
    rfl
  have single : (Program.ofTokens false (front ++ behind)).errors.length = 1 ↔
      (Program.ofTokens false
        (front ++ semicolon :: restarted (beforeEnd behind))).errors = [] := by
    rw [errors, errors_ofTokens_eq_nil, beforeEnd_restarted isSemicolon noMark]
    simp
  refine ⟨⟨fault, errors⟩, single, fun atEnd => single.2 ?_⟩
  rw [atEnd] at tree
  have whole := tree.declarations_append false (noElse_restarted [])
  rw [List.append_assoc, List.cons_append, List.nil_append] at whole
  rw [errors_ofTokens_eq_nil, beforeEnd_restarted isSemicolon noMark, atEnd, whole]
  injection goesOn_declarations.read_restarted [] with _ same
  rw [resume, declarations_nil] at same
  exact same

/-- A statement without its semicolon. -/
def unclosedPrint : List Token :=
  [⟨.keyword .printWord, "print", 1⟩, ⟨.identifier, "a", 1⟩]

/-- The declaration of a variable and another statement. -/
def variableBehind : List Token :=
  [⟨.keyword .varWord, "var", 1⟩, ⟨.identifier, "b", 1⟩, ⟨.symbol .equal, "=", 1⟩,
    ⟨.identifier, "a", 1⟩, ⟨.symbol .semicolon, ";", 1⟩, ⟨.keyword .printWord, "print", 1⟩,
    ⟨.identifier, "b", 1⟩, ⟨.symbol .semicolon, ";", 1⟩]

/-- The declaration of a function. -/
def functionBehind : List Token :=
  [⟨.keyword .funWord, "fun", 1⟩, ⟨.identifier, "f", 1⟩, ⟨.symbol .leftParen, "(", 1⟩,
    ⟨.symbol .rightParen, ")", 1⟩, ⟨.symbol .leftBrace, "\x7b", 1⟩,
    ⟨.keyword .returnWord, "return", 1⟩, ⟨.identifier, "a", 1⟩, ⟨.symbol .semicolon, ";", 1⟩,
    ⟨.symbol .rightBrace, "\x7d", 1⟩]

/-- In front of a variable there is one error, because the skipping ends behind its
declaration; and it is the one at the word that announces it. -/
theorem unclosedPrint_variableBehind :
    (∀ token ∈ unclosedPrint, token.isEnd = false) ∧
    (Program.ofTokens false
      (unclosedPrint ++ ⟨.symbol .semicolon, ";", 1⟩ :: variableBehind)).errors = [] ∧
    FollowsStatement (beforeEnd variableBehind) ∧
    (Program.ofTokens false (unclosedPrint ++ variableBehind)).errors.length = 1 ∧
    ∃ fault more, (Program.ofTokens false (unclosedPrint ++ variableBehind)).errors =
      .grammatical fault ⟨.keyword .varWord, "var", 1⟩ :: more := by
  have noMark : ∀ token ∈ unclosedPrint, token.isEnd = false := by decide
  have quiet : (Program.ofTokens false
      (unclosedPrint ++ ⟨.symbol .semicolon, ";", 1⟩ :: variableBehind)).errors = [] := by
    decide +kernel
  have follows : FollowsStatement (beforeEnd variableBehind) := by
    rintro _ ⟨⟩
    exact .inr rfl
  obtain ⟨⟨fault, first⟩, single, -⟩ := errors_without_semicolon rfl noMark quiet follows
  exact ⟨noMark, quiet, follows, single.2 (by decide +kernel), fault, _, first⟩

/-- In front of a function there are two errors: the word that announces it is skipped, and the
reading goes on inside its body, so that the brace that closes the body is an error too. -/
theorem unclosedPrint_functionBehind :
    (∀ token ∈ unclosedPrint, token.isEnd = false) ∧
    (Program.ofTokens false
      (unclosedPrint ++ ⟨.symbol .semicolon, ";", 1⟩ :: functionBehind)).errors = [] ∧
    FollowsStatement (beforeEnd functionBehind) ∧
    (Program.ofTokens false (unclosedPrint ++ functionBehind)).errors =
      [.grammatical .printNotClosed ⟨.keyword .funWord, "fun", 1⟩,
        .grammatical .noExpression ⟨.symbol .rightBrace, "\x7d", 1⟩] := by
  refine ⟨by decide, by decide +kernel, ?_, by decide +kernel⟩
  rintro _ ⟨⟩
  exact .inr rfl

end Lox.Grammar
