/-
# What is read as a statement is derived

The counterpart for statements and declarations.  Besides the tree of what was
taken, the proofs keep track of an `else` that is left: a statement that could
have taken it never leaves one, which is why every `else` goes to the nearest
conditional.
-/

import Lox.Proofs.Grammar.Soundness.Expression

namespace Lox.Grammar

open Reader

/-- What follows is no `else`. -/
def NoElse (tokens : List Token) : Prop :=
  ∀ token ∈ tokens.head?, token.kind ≠ .keyword .elseWord

/-- The statements of a block or a program, each with its row of tokens and
whether it could take an `else`. -/
abbrev Body := List (List Token × Stmt Unit × Bool)

namespace Body

/-- Every row is a declaration. -/
def Declarations (body : Body) : Prop :=
  ∀ row ∈ body, Statement .declaration row.1 row.2.1 row.2.2

/-- The tokens of all rows. -/
def tokens (body : Body) : List Token :=
  (body.map Prod.fst).flatten

/-- The statements of all rows. -/
def statements (body : Body) : List (Stmt Unit) :=
  body.map fun row => row.2.1

theorem Declarations.cons {tokens : List Token} {stmt : Stmt Unit} {dangling : Bool} {body : Body}
    (first : Statement .declaration tokens stmt dangling) (others : body.Declarations) :
    Declarations ((tokens, stmt, dangling) :: body) := by
  rintro row member
  rcases List.mem_cons.1 member with rfl | member
  · exact first
  · exact others row member

end Body

theorem expressionUnless_of_clean {symbol : Symbol} {tokens : List Token}
    {value : Option (Expr Unit)} {rest : List Token}
    (clean : (expressionUnless symbol tokens).Clean value rest) :
    ∃ used, tokens = used ++ rest ∧ OptionalExpression used value := by
  unfold expressionUnless at clean
  split at clean
  · rw [clean_behind, clean_map] at clean
    obtain ⟨expr, inner, rfl⟩ := clean
    obtain ⟨used, same, whole⟩ := expression_of_clean inner
    exact ⟨used, same, .present whole⟩
  · split at clean
    · rw [clean_still] at clean
      obtain ⟨rfl, rfl⟩ := clean
      exact ⟨[], rfl, .absent⟩
    · rw [clean_behind, clean_map] at clean
      obtain ⟨expr, inner, rfl⟩ := clean
      obtain ⟨used, same, whole⟩ := expression_of_clean inner
      exact ⟨used, same, .present whole⟩

theorem varDeclaration_of_clean {opening : Token} {tokens : List Token} {stmt : Stmt Unit}
    {rest : List Token} (isVar : opening.kind = .keyword .varWord)
    (clean : (varDeclaration tokens).Clean stmt rest) :
    ∃ used, tokens = used ++ rest ∧ VariableDeclaration (opening :: used) stmt := by
  rw [varDeclaration, clean_andThen] at clean
  obtain ⟨name, middle, _, first, second⟩ := clean
  obtain ⟨rfl, isName⟩ := clean_expect.1 first
  rw [Token.isIdentifier_iff] at isName
  rw [clean_map] at second
  obtain ⟨value, inner, rfl⟩ := second
  unfold initialValue at inner
  split at inner
  · exact absurd inner not_clean_stopped
  · next equals left _ =>
      split at inner
      · next isEqual =>
          rw [Token.isSymbol_iff] at isEqual
          rw [clean_behind, clean_andThen] at inner
          obtain ⟨expr, middle, _, source, closing⟩ := inner
          simp only [clean_map, clean_expect, Token.isSymbol_iff] at closing
          obtain ⟨semicolon, ⟨rfl, isSemicolon⟩, rfl⟩ := closing
          obtain ⟨used, rfl, whole⟩ := expression_of_clean source
          exact ⟨name :: equals :: (used ++ [semicolon]), by simp,
            .initialized isVar isName isEqual whole isSemicolon⟩
      · simp only [clean_map, clean_expect, Token.isSymbol_iff, List.cons.injEq] at inner
        obtain ⟨semicolon, ⟨⟨rfl, rfl⟩, isSemicolon⟩, rfl⟩ := inner
        exact ⟨[name, equals], rfl, .bare isVar isName isSemicolon⟩

theorem expressionStatement_of_clean {tokens : List Token} {stmt : Stmt Unit}
    {rest : List Token} (clean : (expressionStatement false tokens).Clean stmt rest) :
    ∃ used, tokens = used ++ rest ∧ ExpressionStatement used stmt := by
  rw [expressionStatement, clean_andPerhaps] at clean
  obtain ⟨expr, left, _, inner, closing⟩ := clean
  simp only [Bool.false_and, Bool.false_eq_true, if_false, clean_behind, clean_map, clean_expect,
    Token.isSymbol_iff] at closing
  obtain ⟨semicolon, ⟨rfl, isSemicolon⟩, rfl⟩ := closing
  obtain ⟨used, rfl, whole⟩ := expression_of_clean inner
  exact ⟨used ++ [semicolon], by simp, .intro whole isSemicolon⟩

theorem initializerClause_of_clean {tokens : List Token} {initializer : Option (Stmt Unit)}
    {rest : List Token} (clean : (initializerClause false tokens).Clean initializer rest) :
    ∃ used, tokens = used ++ rest ∧ Initializer used initializer := by
  unfold initializerClause at clean
  split at clean
  · rw [clean_map] at clean
    obtain ⟨stmt, inner, rfl⟩ := clean
    obtain ⟨used, same, whole⟩ := expressionStatement_of_clean inner
    exact ⟨used, same, .expression whole⟩
  · next first tokens =>
      split at clean
      · next isSemicolon =>
          rw [Token.isSymbol_iff] at isSemicolon
          rw [clean_still] at clean
          obtain ⟨rfl, rfl⟩ := clean
          exact ⟨[first], rfl, .absent isSemicolon⟩
      · split at clean
        · next isVar =>
            rw [Token.isKeyword_iff] at isVar
            rw [clean_behind, clean_map] at clean
            obtain ⟨stmt, inner, rfl⟩ := clean
            obtain ⟨used, rfl, whole⟩ := varDeclaration_of_clean isVar inner
            exact ⟨first :: used, rfl, .declaration whole⟩
        · rw [clean_map] at clean
          obtain ⟨stmt, inner, rfl⟩ := clean
          obtain ⟨used, same, whole⟩ := expressionStatement_of_clean inner
          exact ⟨used, same, .expression whole⟩

theorem loopClauses_of_clean {tokens : List Token} {clauses : Clauses Unit} {rest : List Token}
    (clean : (loopClauses false tokens).Clean clauses rest) :
    ∃ left first second semicolon third right,
      tokens = left :: (first ++ second ++ semicolon :: (third ++ right :: rest)) ∧
        left.kind = .symbol .leftParen ∧ Initializer first clauses.initializer ∧
        OptionalExpression second clauses.condition ∧ semicolon.kind = .symbol .semicolon ∧
        OptionalExpression third clauses.increment ∧ right.kind = .symbol .rightParen := by
  simp only [loopClauses, clean_andThen, clean_andPerhaps, clean_expect, clean_map,
    Token.isSymbol_iff] at clean
  obtain ⟨left, _, _, ⟨rfl, isLeft⟩, initializer, _, _, one, condition, _, _, two, semicolon,
    _, _, ⟨rfl, isSemicolon⟩, increment, _, _, three, right, ⟨rfl, isRight⟩, rfl⟩ := clean
  obtain ⟨first, rfl, before⟩ := initializerClause_of_clean one
  obtain ⟨second, rfl, guard⟩ := expressionUnless_of_clean two
  obtain ⟨third, rfl, step⟩ := expressionUnless_of_clean three
  exact ⟨left, first, second, semicolon, third, right, by simp, isLeft, before, guard,
    isSemicolon, step, isRight⟩

theorem condition_of_clean {opening closing : SyntaxFault} {tokens : List Token}
    {expr : Expr Unit} {rest : List Token}
    (clean : (condition opening closing tokens).Clean expr rest) :
    ∃ left guard right, tokens = left :: (guard ++ right :: rest) ∧
      left.kind = .symbol .leftParen ∧ Expression .assignment guard expr ∧
      right.kind = .symbol .rightParen := by
  simp only [condition, clean_andThen, clean_expect, clean_map, Token.isSymbol_iff] at clean
  obtain ⟨left, _, _, ⟨rfl, isLeft⟩, expr, _, _, inner, right, ⟨rfl, isRight⟩, rfl⟩ := clean
  obtain ⟨guard, rfl, whole⟩ := expression_of_clean inner
  exact ⟨left, guard, right, rfl, isLeft, whole, isRight⟩

mutual

theorem parameters_of_clean {count : Nat} {tokens names rest : List Token}
    (clean : (parameters count tokens).Clean names rest) :
    ∃ inside, tokens = inside ++ rest ∧ Separated (names.map fun name => [name]) inside ∧
      (∀ name ∈ names, name.kind = .identifier) ∧ count + names.length ≤ 8 ∧ names ≠ [] := by
  rw [parameters, clean_andPerhaps] at clean
  obtain ⟨name, middle, shorter, first, more⟩ := clean
  rw [clean_noticing, clean_expect, Token.isIdentifier_iff] at first
  obtain ⟨quiet, same, isName⟩ := first
  have few : count < 8 := by
    by_contra many
    have reached : mostArguments ≤ count := Nat.le_of_not_lt many
    rw [if_pos reached] at quiet
    cases quiet
  rw [clean_map] at more
  obtain ⟨others, behind, rfl⟩ := more
  obtain ⟨used, rfl, separated, areNames, fits⟩ := furtherParameters_of_clean behind few
  refine ⟨name :: used, by rw [same, List.cons_append], separated name, ?_, ?_,
    List.cons_ne_nil _ _⟩
  · rintro other member
    rcases List.mem_cons.1 member with rfl | member
    · exact isName
    · exact areNames other member
  · simp only [List.length_cons]
    omega
termination_by tokens.length

theorem furtherParameters_of_clean {count : Nat} {tokens names rest : List Token}
    (clean : (furtherParameters (count + 1) tokens).Clean names rest) (few : count < 8) :
    ∃ used, tokens = used ++ rest ∧
      (∀ first, Separated ((first :: names).map fun name => [name]) (first :: used)) ∧
      (∀ name ∈ names, name.kind = .identifier) ∧ count + 1 + names.length ≤ 8 := by
  have ends (left : List Token) : ∃ used, left = used ++ left ∧
      (∀ first : Token, Separated ([first].map fun name => [name]) (first :: used)) ∧
        (∀ name ∈ ([] : List Token), name.kind = .identifier) ∧
          count + 1 + ([] : List Token).length ≤ 8 :=
    ⟨[], rfl, fun first => .one [first], by simp, by simpa using Nat.succ_le_of_lt few⟩
  match tokens, clean with
  | [], clean =>
      rw [furtherParameters, clean_still] at clean
      obtain ⟨rfl, rfl⟩ := clean
      exact ends []
  | comma :: tokens, clean =>
      rw [furtherParameters] at clean
      split at clean
      · next isComma =>
          rw [Token.isSymbol_iff] at isComma
          rw [clean_behind, clean_behind] at clean
          obtain ⟨inside, rfl, separated, areNames, fits, some⟩ := parameters_of_clean clean
          refine ⟨comma :: inside, rfl, fun first => ?_, areNames, fits⟩
          obtain ⟨second, others, rfl⟩ := List.exists_cons_of_ne_nil some
          exact Separated.more isComma separated
      · rw [clean_still] at clean
        obtain ⟨rfl, rfl⟩ := clean
        exact ends _
termination_by tokens.length

end

theorem parameterList_of_clean {tokens names rest : List Token}
    (clean : (parameterList tokens).Clean names rest) :
    ∃ inside right, tokens = inside ++ right :: rest ∧
      Separated (names.map fun name => [name]) inside ∧
      (∀ name ∈ names, name.kind = .identifier) ∧ names.length ≤ 8 ∧
      right.kind = .symbol .rightParen := by
  unfold parameterList at clean
  split at clean
  · exact absurd clean not_clean_stopped
  · next first tokens =>
      split at clean
      · next isRight =>
          rw [Token.isSymbol_iff] at isRight
          rw [clean_still] at clean
          obtain ⟨rfl, rfl⟩ := clean
          exact ⟨[], first, rfl, .none, by simp, by simp, isRight⟩
      · simp only [clean_andThen, clean_map, clean_expect, Token.isSymbol_iff] at clean
        obtain ⟨names, _, _, inner, right, ⟨rfl, isRight⟩, rfl⟩ := clean
        obtain ⟨inside, same, separated, areNames, fits, _⟩ := parameters_of_clean inner
        exact ⟨inside, right, same, separated, areNames, by omega, isRight⟩

theorem functionHead_of_clean {kind : FunctionKind} {tokens parameters : List Token}
    {name : Token} {rest : List Token}
    (clean : (functionHead kind tokens).Clean (name, parameters) rest) :
    ∃ left inside right opening, tokens = name :: left :: (inside ++ right :: opening :: rest) ∧
      name.kind = .identifier ∧ left.kind = .symbol .leftParen ∧
      Separated (parameters.map fun name => [name]) inside ∧
      (∀ parameter ∈ parameters, parameter.kind = .identifier) ∧ parameters.length ≤ 8 ∧
      right.kind = .symbol .rightParen ∧ opening.kind = .symbol .leftBrace := by
  simp only [functionHead, clean_andThen, clean_expect, clean_map, Token.isSymbol_iff,
    Token.isIdentifier_iff, Prod.mk.injEq] at clean
  obtain ⟨_, _, _, ⟨rfl, isName⟩, left, _, _, ⟨rfl, isLeft⟩, _, _, _, inner, opening,
    ⟨rfl, isOpening⟩, rfl, rfl⟩ := clean
  obtain ⟨inside, right, rfl, separated, areNames, few, isRight⟩ := parameterList_of_clean inner
  exact ⟨left, inside, right, opening, rfl, isName, isLeft, separated, areNames, few, isRight,
    isOpening⟩

theorem loopTree_eq (initializer : Option (Stmt Unit)) (condition increment : Option (Expr Unit))
    (body : Stmt Unit) :
    loopTree initializer condition increment body =
      loopWithClauses initializer condition increment body := by
  cases initializer <;> cases condition <;> cases increment <;> rfl

mutual

theorem declaration_of_clean {first : Token} {tokens : List Token} {stmt : Stmt Unit}
    {rest : List Token} (clean : (declaration false first tokens).Clean stmt rest) :
    ∃ used dangling, first :: tokens = used ++ rest ∧
      Statement .declaration used stmt dangling := by
  rw [declaration, Declarer.clean_ofReader] at clean
  split at clean
  · next isClass =>
      rw [clean_behind] at clean
      obtain ⟨used, rfl, whole⟩ := classDeclaration_of_clean isClass clean
      exact ⟨first :: used, false, rfl, whole⟩
  · next isFun =>
      rw [clean_behind, clean_map] at clean
      obtain ⟨function, inner, rfl⟩ := clean
      obtain ⟨used, rfl, whole⟩ := function_of_clean inner
      exact ⟨first :: used, false, rfl, .funDecl isFun whole⟩
  · next isVar =>
      rw [clean_behind] at clean
      obtain ⟨used, rfl, whole⟩ := varDeclaration_of_clean isVar clean
      exact ⟨first :: used, false, rfl, .varDecl whole⟩
  · obtain ⟨used, dangling, same, whole, _⟩ := statement_of_clean clean
    exact ⟨used, dangling, same, .statement whole⟩
termination_by 3 * tokens.length + 4
decreasing_by
  · omega
  · omega
  · simp only [List.length_cons]
    omega

theorem statement_of_clean {tokens : List Token} {stmt : Stmt Unit} {rest : List Token}
    (clean : (statement false tokens).Clean stmt rest) :
    ∃ used dangling, tokens = used ++ rest ∧ Statement .statement used stmt dangling ∧
      (dangling = true → NoElse rest) := by
  match tokens, clean with
  | [], clean =>
      rw [statement] at clean
      obtain ⟨used, same, whole⟩ := expressionStatement_of_clean clean
      exact ⟨used, false, same, .expression whole, by simp⟩
  | first :: tokens, clean =>
      rw [statement] at clean
      split at clean
      · next isFor =>
          rw [clean_behind, clean_andThen] at clean
          obtain ⟨clauses, middle, shorter, head, body⟩ := clean
          rw [clean_map] at body
          obtain ⟨inner, body, rfl⟩ := body
          obtain ⟨left, one, two, semicolon, three, right, rfl, isLeft, before, guard,
            isSemicolon, step, isRight⟩ := loopClauses_of_clean head
          obtain ⟨used, dangling, rfl, whole, nearest⟩ := statement_of_clean body
          rw [← loopTree_eq]
          exact ⟨first :: left :: (one ++ two ++ semicolon :: (three ++ right :: used)), dangling,
            by simp, .loop isFor isLeft before guard isSemicolon step isRight whole, nearest⟩
      · next isIf =>
          rw [clean_behind, clean_andThen] at clean
          obtain ⟨test, middle, shorter, head, body⟩ := clean
          rw [clean_andPerhaps] at body
          obtain ⟨onTrue, middle', shorter', branch, other⟩ := body
          rw [clean_map] at other
          obtain ⟨onFalse, other, rfl⟩ := other
          obtain ⟨left, guard, right, rfl, isLeft, derived, isRight⟩ := condition_of_clean head
          obtain ⟨used, dangling, rfl, whole, nearest⟩ := statement_of_clean branch
          rcases alternative_of_clean other with ⟨rfl, rfl, none⟩ |
            ⟨otherwise, used', stmt, dangling', rfl, isElse, rfl, whole', nearest'⟩
          · exact ⟨first :: left :: (guard ++ right :: used), true, by simp,
              .conditional isIf isLeft derived isRight whole, fun _ => none⟩
          · -- The branch has left an `else`, so it is none that could take one.
            have closed : dangling = false := by
              cases dangling with
              | false => rfl
              | true => exact absurd isElse (nearest rfl otherwise rfl)
            subst closed
            exact ⟨first :: left :: (guard ++ right :: (used ++ otherwise :: used')), dangling',
              by simp, .alternative isIf isLeft derived isRight whole isElse whole', nearest'⟩
      · next isWhile =>
          rw [clean_behind, clean_andThen] at clean
          obtain ⟨test, middle, shorter, head, body⟩ := clean
          rw [clean_map] at body
          obtain ⟨inner, body, rfl⟩ := body
          obtain ⟨left, guard, right, rfl, isLeft, derived, isRight⟩ := condition_of_clean head
          obtain ⟨used, dangling, rfl, whole, nearest⟩ := statement_of_clean body
          exact ⟨first :: left :: (guard ++ right :: used), dangling, by simp,
            .whileLoop isWhile isLeft derived isRight whole, nearest⟩
      · next isReturn =>
          simp only [returnStatement, clean_andThen, clean_map, clean_expect,
            Token.isSymbol_iff] at clean
          obtain ⟨value, _, _, inner, semicolon, ⟨rfl, isSemicolon⟩, rfl⟩ := clean
          obtain ⟨used, rfl, whole⟩ := expressionUnless_of_clean inner
          exact ⟨first :: (used ++ [semicolon]), false, by simp,
            .returning isReturn whole isSemicolon, by simp⟩
      · next isLeft =>
          rw [clean_behind, clean_map] at clean
          obtain ⟨statements, inner, rfl⟩ := clean
          obtain ⟨body, right, rfl, rfl, declarations, isRight⟩ := block_of_clean inner
          exact ⟨first :: (body.tokens ++ [right]), false, by simp,
            .block isLeft declarations rfl isRight, by simp⟩
      · next isPrint =>
          simp only [printStatement, clean_behind, clean_andThen, clean_map, clean_expect,
            Token.isSymbol_iff] at clean
          obtain ⟨value, _, _, inner, semicolon, ⟨rfl, isSemicolon⟩, rfl⟩ := clean
          obtain ⟨used, rfl, whole⟩ := expression_of_clean inner
          exact ⟨first :: (used ++ [semicolon]), false, by simp,
            .print isPrint whole isSemicolon, by simp⟩
      · obtain ⟨used, same, whole⟩ := expressionStatement_of_clean clean
        exact ⟨used, false, same, .expression whole, by simp⟩
termination_by 3 * tokens.length
decreasing_by all_goals (simp only [List.length_cons] at *; omega)

theorem alternative_of_clean {tokens : List Token} {onFalse : Option (Stmt Unit)}
    {rest : List Token} (clean : (Lox.alternative false tokens).Clean onFalse rest) :
    (onFalse = none ∧ tokens = rest ∧ NoElse rest) ∨
      ∃ otherwise used stmt dangling, tokens = otherwise :: (used ++ rest) ∧
        otherwise.kind = .keyword .elseWord ∧ onFalse = some stmt ∧
        Statement .statement used stmt dangling ∧ (dangling = true → NoElse rest) := by
  match tokens, clean with
  | [], clean =>
      rw [Lox.alternative, clean_still] at clean
      obtain ⟨rfl, rfl⟩ := clean
      exact .inl ⟨rfl, rfl, by simp [NoElse]⟩
  | first :: tokens, clean =>
      rw [Lox.alternative] at clean
      split at clean
      · next isElse =>
          rw [Token.isKeyword_iff] at isElse
          rw [clean_behind, clean_behind, clean_map] at clean
          obtain ⟨stmt, inner, rfl⟩ := clean
          obtain ⟨used, dangling, rfl, whole, nearest⟩ := statement_of_clean inner
          exact .inr ⟨first, used, stmt, dangling, rfl, isElse, rfl, whole, nearest⟩
      · next isNoElse =>
          rw [Token.isKeyword_iff] at isNoElse
          rw [clean_still] at clean
          obtain ⟨rfl, rfl⟩ := clean
          exact .inl ⟨rfl, rfl, by simpa [NoElse] using isNoElse⟩
termination_by 3 * tokens.length
decreasing_by
  simp only [List.length_cons]
  omega

theorem block_of_clean {tokens : List Token} {statements : List (Stmt Unit)}
    {rest : List Token} (clean : (block false tokens).Clean statements rest) :
    ∃ (body : Body) (right : Token), tokens = body.tokens ++ right :: rest ∧
      statements = body.statements ∧ body.Declarations ∧ right.kind = .symbol .rightBrace := by
  match tokens, clean with
  | [], clean =>
      rw [block] at clean
      exact absurd clean not_clean_stopped
  | first :: tokens, clean =>
      rw [block] at clean
      split at clean
      · next isRight =>
          rw [Token.isSymbol_iff] at isRight
          rw [clean_still] at clean
          obtain ⟨rfl, rfl⟩ := clean
          exact ⟨[], first, rfl, rfl, by simp [Body.Declarations], isRight⟩
      · rw [clean_declaration_andThen] at clean
        obtain ⟨stmt, middle, shorter, others, one, more, rfl⟩ := clean
        obtain ⟨used, dangling, same, whole⟩ := declaration_of_clean one
        obtain ⟨body, right, rfl, rfl, declarations, isRight⟩ := block_of_clean more
        exact ⟨(used, stmt, dangling) :: body, right, by simp [same, Body.tokens], rfl,
          .cons whole declarations, isRight⟩
termination_by 3 * tokens.length + 2
decreasing_by all_goals (simp only [List.length_cons]; omega)

theorem function_of_clean {kind : FunctionKind} {tokens : List Token}
    {function : FunctionDecl Unit} {rest : List Token}
    (clean : (Lox.function false kind tokens).Clean function rest) :
    ∃ used, tokens = used ++ rest ∧ Statement .function used (.funDecl function) false := by
  rw [Lox.function, clean_andThen] at clean
  obtain ⟨⟨name, parameters⟩, middle, shorter, head, inner⟩ := clean
  rw [clean_map] at inner
  obtain ⟨statements, inner, rfl⟩ := inner
  obtain ⟨left, inside, right, opening, rfl, isName, isLeft, separated, areNames, few,
    isRight, isOpening⟩ := functionHead_of_clean head
  obtain ⟨body, closing, rfl, rfl, declarations, isClosing⟩ := block_of_clean inner
  exact ⟨name :: left :: (inside ++ right :: opening :: (body.tokens ++ [closing])), by simp,
    .function isName isLeft separated areNames few isRight isOpening declarations rfl isClosing⟩
termination_by 3 * tokens.length
decreasing_by omega

theorem methods_of_clean {tokens : List Token} {found : List (FunctionDecl Unit)}
    {rest : List Token} (clean : (methods false tokens).Clean found rest) :
    ∃ rows : List (List Token × FunctionDecl Unit),
      tokens = (rows.map Prod.fst).flatten ++ rest ∧ found = rows.map Prod.snd ∧
        ∀ row ∈ rows, Statement .function row.1 (.funDecl row.2) false := by
  match tokens, clean with
  | [], clean =>
      rw [methods, clean_still] at clean
      obtain ⟨rfl, rfl⟩ := clean
      exact ⟨[], rfl, rfl, by simp⟩
  | first :: tokens, clean =>
      rw [methods] at clean
      split at clean
      · rw [clean_still] at clean
        obtain ⟨rfl, rfl⟩ := clean
        exact ⟨[], rfl, rfl, by simp⟩
      · rw [clean_behind, clean_andPerhaps] at clean
        obtain ⟨method, middle, shorter, head, more⟩ := clean
        rw [clean_map] at more
        obtain ⟨others, more, rfl⟩ := more
        obtain ⟨used, same, whole⟩ := function_of_clean head
        obtain ⟨rows, rfl, rfl, all⟩ := methods_of_clean more
        refine ⟨(used, method) :: rows, by simp [same], rfl, ?_⟩
        rintro row member
        rcases List.mem_cons.1 member with rfl | member
        · exact whole
        · exact all row member
termination_by 3 * tokens.length + 1
decreasing_by
  · omega
  · simp only [List.length_cons] at *
    omega

theorem classDeclaration_of_clean {opening : Token} {tokens : List Token} {stmt : Stmt Unit}
    {rest : List Token} (isClass : opening.kind = .keyword .classWord)
    (clean : (classDeclaration false tokens).Clean stmt rest) :
    ∃ used, tokens = used ++ rest ∧ Statement .declaration (opening :: used) stmt false := by
  simp only [classDeclaration, clean_andThen, clean_andPerhaps, clean_expect, clean_map,
    Token.isSymbol_iff, Token.isIdentifier_iff] at clean
  obtain ⟨name, _, _, ⟨rfl, isName⟩, left, middle, shorter, ⟨rfl, isLeft⟩, members, _, _, inner,
    right, ⟨rfl, isRight⟩, rfl⟩ := clean
  obtain ⟨rows, rfl, rfl, all⟩ := methods_of_clean inner
  exact ⟨name :: left :: ((rows.map Prod.fst).flatten ++ [right]), by simp,
    .classDecl isClass isName isLeft all rfl isRight⟩
termination_by 3 * tokens.length
decreasing_by omega

end

end Lox.Grammar
