/-
# What is derived as a statement is read

The counterpart for statements and declarations.  A statement that could take
an `else` is read as derived only if no `else` follows it; every other one is
read whatever follows.  Inside a block or a program this is no restriction,
because neither a declaration nor a closing brace starts with `else`.

All this holds in both modes: what is derived has all its semicolons, so that
it makes no difference whether the last one may be left off.
-/

import Lox.Proofs.Grammar.Completeness.Expression
import Lox.Proofs.Grammar.Soundness.Statement

namespace Lox.Grammar

open Reader

variable {trailing : Bool}

/-- A statement can start with the token. -/
def StartsStatement (token : Token) : Prop :=
  StartsExpression token ∨ token.kind = .keyword .forWord ∨ token.kind = .keyword .ifWord ∨
    token.kind = .keyword .whileWord ∨ token.kind = .keyword .returnWord ∨
      token.kind = .keyword .printWord ∨ token.kind = .symbol .leftBrace

/-- A declaration can start with the token. -/
def StartsDeclaration (token : Token) : Prop :=
  StartsStatement token ∨ token.kind = .keyword .classWord ∨ token.kind = .keyword .funWord ∨
    token.kind = .keyword .varWord

/-- The token can start something of the form. -/
def Form.Starts : Form → Token → Prop
  | .declaration => StartsDeclaration
  | .statement => StartsStatement
  | .function => fun token => token.kind = .identifier

/-- An expression starts with a prefix operator, an atom or a parenthesis. -/
theorem StartsExpression.kind {token : Token} (starts : StartsExpression token) :
    (∀ keyword, token.kind = .keyword keyword →
      keyword ∈ [Keyword.falseWord, .trueWord, .nilWord, .thisWord]) ∧
    ∀ symbol, token.kind = .symbol symbol → symbol ∈ [Symbol.bang, .minus, .leftParen] := by
  constructor
  · intro keyword same
    rcases starts with isOperator | isAtom | isOpening
    · simp [isPrefixOperator, Token.isSymbol, same] at isOperator
    · cases keyword <;> simp [atom?, same] at isAtom ⊢
    · simp [same] at isOpening
  · intro symbol same
    rcases starts with isOperator | isAtom | isOpening
    · rw [isPrefixOperator_iff, same] at isOperator
      rcases isOperator with isBang | isMinus
      · cases isBang
        decide
      · cases isMinus
        decide
    · simp [atom?, same] at isAtom
    · rw [same] at isOpening
      cases isOpening
      decide

theorem StartsExpression.not_keyword {token : Token} (starts : StartsExpression token)
    {keyword : Keyword} (same : token.kind = .keyword keyword)
    (other : keyword ∉ [Keyword.falseWord, .trueWord, .nilWord, .thisWord]) : False :=
  other (starts.kind.1 keyword same)

theorem StartsExpression.not_symbol {token : Token} (starts : StartsExpression token)
    {symbol : Symbol} (same : token.kind = .symbol symbol)
    (other : symbol ∉ [Symbol.bang, .minus, .leftParen]) : False :=
  other (starts.kind.2 symbol same)

/-- No declaration starts with a closing brace or with `else`. -/
theorem StartsDeclaration.kind {token : Token} (starts : StartsDeclaration token) :
    token.kind ≠ .symbol .rightBrace ∧ token.kind ≠ .keyword .elseWord := by
  constructor
  · intro same
    rcases starts with (starts | starts) | starts
    · exact starts.not_symbol same (by decide)
    · simp [same] at starts
    · simp [same] at starts
  · intro same
    rcases starts with (starts | starts) | starts
    · exact starts.not_keyword same (by decide)
    · simp [same] at starts
    · simp [same] at starts

/-- No statement starts with a word that announces a declaration. -/
theorem StartsStatement.kind {token : Token} (starts : StartsStatement token) :
    token.kind ≠ .keyword .classWord ∧ token.kind ≠ .keyword .funWord ∧
      token.kind ≠ .keyword .varWord := by
  refine ⟨fun same => ?_, fun same => ?_, fun same => ?_⟩
  all_goals
    rcases starts with starts | starts
    · exact starts.not_keyword same (by decide)
    · simp [same] at starts

theorem ExpressionStatement.starts {tokens : List Token} {stmt : Stmt Unit}
    (derived : ExpressionStatement tokens stmt) :
    ∃ first more, tokens = first :: more ∧ StartsExpression first := by
  obtain ⟨whole, _⟩ := derived
  obtain ⟨first, more, rfl, starts⟩ := whole.starts
  exact ⟨first, _, rfl, starts⟩

theorem VariableDeclaration.starts {tokens : List Token} {stmt : Stmt Unit}
    (derived : VariableDeclaration tokens stmt) :
    ∃ first more, tokens = first :: more ∧ first.kind = .keyword .varWord := by
  cases derived with
  | bare isVar => exact ⟨_, _, rfl, isVar⟩
  | initialized isVar => exact ⟨_, _, rfl, isVar⟩

/-- What is derived starts with a token that its form can start with. -/
theorem Statement.starts {form : Form} {tokens : List Token} {stmt : Stmt Unit} {dangling : Bool}
    (derived : Statement form tokens stmt dangling) :
    ∃ first more, tokens = first :: more ∧ form.Starts first := by
  induction derived with
  | classDecl isClass => exact ⟨_, _, rfl, .inr (.inl isClass)⟩
  | funDecl isFun => exact ⟨_, _, rfl, .inr (.inr (.inl isFun))⟩
  | varDecl whole =>
      obtain ⟨first, more, rfl, isVar⟩ := whole.starts
      exact ⟨first, more, rfl, .inr (.inr (.inr isVar))⟩
  | statement _ ih =>
      obtain ⟨first, more, rfl, starts⟩ := ih
      exact ⟨first, more, rfl, .inl starts⟩
  | function isName => exact ⟨_, _, rfl, isName⟩
  | expression whole =>
      obtain ⟨first, more, rfl, starts⟩ := whole.starts
      exact ⟨first, more, rfl, .inl starts⟩
  | loop isFor => exact ⟨_, _, rfl, .inr (.inl isFor)⟩
  | conditional isIf => exact ⟨_, _, rfl, .inr (.inr (.inl isIf))⟩
  | alternative isIf => exact ⟨_, _, rfl, .inr (.inr (.inl isIf))⟩
  | whileLoop isWhile => exact ⟨_, _, rfl, .inr (.inr (.inr (.inl isWhile)))⟩
  | returning isReturn => exact ⟨_, _, rfl, .inr (.inr (.inr (.inr (.inl isReturn))))⟩
  | print isPrint => exact ⟨_, _, rfl, .inr (.inr (.inr (.inr (.inr (.inl isPrint)))))⟩
  | block isLeft => exact ⟨_, _, rfl, .inr (.inr (.inr (.inr (.inr (.inr isLeft)))))⟩

/-- A token that is there is read where it is asked for. -/
theorem clean_expect_symbol {symbol : Symbol} {fault : SyntaxFault} {token : Token}
    {rest : List Token} (same : token.kind = .symbol symbol) :
    (expect (·.isSymbol symbol) fault (token :: rest)).Clean token rest :=
  clean_expect.2 ⟨rfl, Token.isSymbol_iff.2 same⟩

theorem clean_expect_identifier {fault : SyntaxFault} {token : Token} {rest : List Token}
    (same : token.kind = .identifier) :
    (expect Token.isIdentifier fault (token :: rest)).Clean token rest :=
  clean_expect.2 ⟨rfl, Token.isIdentifier_iff.2 same⟩

/-- An expression and a symbol behind it are read one after the other. -/
theorem Expression.clean_expect {α : Type} {tokens : List Token} {expr : Expr Unit}
    (derived : Expression .assignment tokens expr) {symbol : Symbol} {fault : SyntaxFault}
    {token : Token} {rest : List Token} (same : token.kind = .symbol symbol)
    (closes : EndsAll token) {f : Expr Unit → Token → α} :
    ((Lox.expression (tokens ++ token :: rest)).andThen fun expr rest _ =>
      (expect (·.isSymbol symbol) fault rest).map (f expr)).Clean (f expr token) rest := by
  rw [clean_andThen]
  have whole := derived.clean (closes.ends rest)
  refine ⟨expr, _, whole.length_lt, whole, ?_⟩
  rw [clean_map]
  exact ⟨token, clean_expect_symbol same, rfl⟩

/-- An expression is read unless a symbol stands there with which none starts. -/
theorem OptionalExpression.clean {tokens : List Token} {value : Option (Expr Unit)}
    (derived : OptionalExpression tokens value) (rest : List Token) {symbol : Symbol}
    {token : Token} (same : token.kind = .symbol symbol) (closes : EndsAll token)
    (other : symbol ∉ [Symbol.bang, .minus, .leftParen]) :
    (expressionUnless symbol (tokens ++ token :: rest)).Clean value (token :: rest) := by
  cases derived with
  | absent =>
      rw [List.nil_append, expressionUnless, if_pos (Token.isSymbol_iff.2 same)]
      simp
  | @present _ expr whole =>
      have clean := whole.clean (closes.ends rest)
      obtain ⟨first, more, rfl, starts⟩ := whole.starts
      have noSymbol : ¬ first.isSymbol symbol = true :=
        fun isSymbol => starts.not_symbol (Token.isSymbol_iff.1 isSymbol) other
      rw [List.cons_append, expressionUnless, if_neg noSymbol, clean_behind, clean_map]
      exact ⟨expr, clean, rfl⟩

theorem ExpressionStatement.clean (trailing : Bool) {tokens : List Token} {stmt : Stmt Unit}
    (derived : ExpressionStatement tokens stmt) (rest : List Token) :
    (expressionStatement trailing (tokens ++ rest)).Clean stmt rest := by
  obtain @⟨tokens, expr, semicolon, whole, isSemicolon⟩ := derived
  rw [List.append_assoc, List.cons_append, List.nil_append, expressionStatement, clean_andPerhaps]
  have inner := whole.clean (EndsAll.ends (.inl isSemicolon) rest)
  refine ⟨expr, _, inner.length_lt, inner, ?_⟩
  simp only [List.isEmpty_cons, Bool.and_false, Bool.false_eq_true, if_false, clean_behind,
    clean_map]
  exact ⟨semicolon, clean_expect_symbol isSemicolon, trivial⟩

theorem VariableDeclaration.clean {first : Token} {tokens : List Token} {stmt : Stmt Unit}
    (derived : VariableDeclaration (first :: tokens) stmt) (rest : List Token) :
    (varDeclaration (tokens ++ rest)).Clean stmt rest := by
  cases derived with
  | @bare _ name semicolon _ isName isSemicolon =>
      rw [List.cons_append, List.cons_append, List.nil_append, varDeclaration, clean_andThen]
      refine ⟨name, _, Nat.lt_succ_self _, clean_expect_identifier isName, ?_⟩
      rw [clean_map, initialValue, if_neg (by simp [Token.isSymbol, isSemicolon])]
      refine ⟨none, ?_, rfl⟩
      rw [clean_map]
      exact ⟨semicolon, clean_expect_symbol isSemicolon, rfl⟩
  | @initialized _ name equals semicolon tokens value _ isName isEqual source isSemicolon =>
      rw [List.cons_append, List.cons_append, List.append_assoc, List.cons_append,
        List.nil_append, varDeclaration, clean_andThen]
      refine ⟨name, _, Nat.lt_succ_self _, clean_expect_identifier isName, ?_⟩
      rw [clean_map, initialValue, if_pos (Token.isSymbol_iff.2 isEqual)]
      refine ⟨some value, ?_, rfl⟩
      rw [clean_behind]
      exact source.clean_expect (f := fun value _ => some value) isSemicolon (.inl isSemicolon)

theorem Initializer.clean (trailing : Bool) {tokens : List Token}
    {initializer : Option (Stmt Unit)} (derived : Initializer tokens initializer)
    (rest : List Token) :
    (initializerClause trailing (tokens ++ rest)).Clean initializer rest := by
  cases derived with
  | absent isSemicolon =>
      rw [List.cons_append, List.nil_append, initializerClause,
        if_pos (Token.isSymbol_iff.2 isSemicolon)]
      simp
  | declaration whole =>
      obtain ⟨first, more, rfl, isVar⟩ := whole.starts
      rw [List.cons_append, initializerClause, if_neg (by simp [Token.isSymbol, isVar]),
        if_pos (Token.isKeyword_iff.2 isVar), clean_behind, clean_map]
      exact ⟨_, whole.clean rest, rfl⟩
  | @expression _ stmt whole =>
      have inner := whole.clean trailing rest
      obtain ⟨first, more, rfl, starts⟩ := whole.starts
      have noSemicolon : ¬ first.isSymbol .semicolon = true :=
        fun same => starts.not_symbol (Token.isSymbol_iff.1 same) (by decide)
      have noVar : ¬ first.isKeyword .varWord = true :=
        fun same => starts.not_keyword (Token.isKeyword_iff.1 same) (by decide)
      rw [List.cons_append, initializerClause, if_neg noSemicolon, if_neg noVar, clean_map]
      exact ⟨stmt, inner, rfl⟩

theorem loopClauses_clean (trailing : Bool) {left semicolon right : Token}
    {first second third : List Token}
    {initializer : Option (Stmt Unit)} {condition increment : Option (Expr Unit)}
    (isLeft : left.kind = .symbol .leftParen) (before : Initializer first initializer)
    (guard : OptionalExpression second condition)
    (isSemicolon : semicolon.kind = .symbol .semicolon)
    (step : OptionalExpression third increment) (isRight : right.kind = .symbol .rightParen)
    (rest : List Token) :
    (loopClauses trailing
      (left :: (first ++ (second ++ semicolon :: (third ++ right :: rest))))).Clean
      ⟨initializer, condition, increment⟩ rest := by
  have one := before.clean trailing (second ++ semicolon :: (third ++ right :: rest))
  have two := guard.clean (third ++ right :: rest) isSemicolon (.inl isSemicolon)
    (by decide)
  have three := step.clean rest isRight (.inr (.inl isRight)) (by decide)
  rw [loopClauses, clean_andThen]
  refine ⟨left, _, Nat.lt_succ_self _, clean_expect_symbol isLeft, ?_⟩
  rw [clean_andPerhaps]
  refine ⟨initializer, _, one.length_lt, one, ?_⟩
  rw [clean_andThen]
  refine ⟨condition, _, two.length_lt, two, ?_⟩
  rw [clean_andPerhaps]
  refine ⟨semicolon, _, Nat.lt_succ_self _, clean_expect_symbol isSemicolon, ?_⟩
  rw [clean_andThen]
  refine ⟨increment, _, three.length_lt, three, ?_⟩
  rw [clean_map]
  exact ⟨right, clean_expect_symbol isRight, rfl⟩

theorem condition_clean (opening closing : SyntaxFault) {left right : Token}
    {guard : List Token} {expr : Expr Unit} (isLeft : left.kind = .symbol .leftParen)
    (test : Expression .assignment guard expr) (isRight : right.kind = .symbol .rightParen)
    (rest : List Token) :
    (condition opening closing (left :: (guard ++ right :: rest))).Clean expr rest := by
  rw [condition, clean_andThen]
  refine ⟨left, _, Nat.lt_succ_self _, clean_expect_symbol isLeft, ?_⟩
  exact test.clean_expect (f := fun expr _ => expr) isRight (.inr (.inl isRight))

/-- Parameters with commas between them are read up to what closes them. -/
theorem parameters_clean {name : Token} {names : List Token}
    (areNames : ∀ parameter ∈ name :: names, parameter.kind = .identifier) {inside : List Token}
    (separated : Separated ((name :: names).map fun parameter => [parameter]) inside) (count : Nat)
    (few : count + (name :: names).length ≤ 8) {closing : Token}
    (isClosing : closing.kind = .symbol .rightParen) (rest : List Token) :
    (parameters count (inside ++ closing :: rest)).Clean (name :: names) (closing :: rest) := by
  have isName := areNames name List.mem_cons_self
  have quiet : ¬ mostArguments ≤ count := by
    apply Nat.not_le.2
    show count < 8
    simp only [List.length_cons] at few
    omega
  induction names generalizing name inside count with
  | nil =>
      cases separated
      rw [List.cons_append, List.nil_append, parameters, clean_andPerhaps]
      refine ⟨name, _, Nat.lt_succ_self _,
        clean_noticing.2 ⟨if_neg quiet, clean_expect_identifier isName⟩, ?_⟩
      rw [furtherParameters, if_neg (by simp [Token.isSymbol, isClosing])]
      simp
  | cons second others ih =>
      obtain - | - | @⟨_, _, behind, _, comma, isComma, more⟩ := separated
      rw [List.append_assoc, List.cons_append, List.cons_append, List.nil_append, parameters,
        clean_andPerhaps]
      refine ⟨name, _, Nat.lt_succ_self _,
        clean_noticing.2 ⟨if_neg quiet, clean_expect_identifier isName⟩, ?_⟩
      rw [clean_map, furtherParameters, if_pos (Token.isSymbol_iff.2 isComma)]
      refine ⟨_, ?_, rfl⟩
      rw [clean_behind, clean_behind]
      have areOthers : ∀ parameter ∈ second :: others, parameter.kind = .identifier :=
        fun parameter member => areNames parameter (List.mem_cons_of_mem _ member)
      simp only [List.length_cons] at few
      apply ih areOthers more (count + 1)
      · simp only [List.length_cons]
        omega
      · exact areOthers second List.mem_cons_self
      · apply Nat.not_le.2
        show count + 1 < 8
        omega

theorem functionHead_clean (kind : FunctionKind) {name left right opening : Token}
    {inside names : List Token} (isName : name.kind = .identifier)
    (isLeft : left.kind = .symbol .leftParen)
    (separated : Separated (names.map fun parameter => [parameter]) inside)
    (areNames : ∀ parameter ∈ names, parameter.kind = .identifier) (few : names.length ≤ 8)
    (isRight : right.kind = .symbol .rightParen)
    (isOpening : opening.kind = .symbol .leftBrace) (rest : List Token) :
    (functionHead kind (name :: left :: (inside ++ right :: opening :: rest))).Clean
      (name, names) rest := by
  have list : (parameterList (inside ++ right :: opening :: rest)).Clean names
      (opening :: rest) := by
    cases names with
    | nil =>
        cases separated
        rw [List.nil_append, parameterList, if_pos (Token.isSymbol_iff.2 isRight)]
        simp
    | cons first others =>
        have all := parameters_clean areNames separated 0 (by omega) isRight (opening :: rest)
        obtain ⟨behind, rfl⟩ := separated.exists_append
        have noRight : ¬ first.isSymbol .rightParen = true := by
          simp [Token.isSymbol, areNames first List.mem_cons_self]
        rw [List.append_assoc, List.cons_append, List.nil_append] at all ⊢
        rw [parameterList, if_neg noRight, clean_andThen]
        refine ⟨_, _, all.length_lt, all, ?_⟩
        rw [clean_map]
        exact ⟨right, clean_expect_symbol isRight, rfl⟩
  rw [functionHead, clean_andThen]
  refine ⟨name, _, Nat.lt_succ_self _, clean_expect_identifier isName, ?_⟩
  rw [clean_andThen]
  refine ⟨left, _, Nat.lt_succ_self _, clean_expect_symbol isLeft, ?_⟩
  rw [clean_andThen]
  refine ⟨names, _, list.length_lt, list, ?_⟩
  rw [clean_map]
  exact ⟨opening, clean_expect_symbol isOpening, rfl⟩

/-- What is derived, with the tree, as the functions of the form read it. -/
def Form.Reads (trailing : Bool) : Form → List Token → Stmt Unit → Bool → Prop
  | .statement, used, stmt, dangling =>
    ∀ rest, (dangling = true → NoElse rest) →
      (Lox.statement trailing (used ++ rest)).Clean stmt rest
  | .declaration, used, stmt, dangling =>
    ∃ first more, used = first :: more ∧
      ∀ rest, (dangling = true → NoElse rest) →
        (Lox.declaration trailing first (more ++ rest)).Clean stmt rest
  | .function, used, stmt, _ =>
    ∃ function, stmt = .funDecl function ∧
      ∀ kind rest, (Lox.function trailing kind (used ++ rest)).Clean function rest

/-- Every declaration of a body is read. -/
def Body.Read (trailing : Bool) (body : Body) : Prop :=
  ∀ row ∈ body, Form.Reads trailing .declaration row.1 row.2.1 row.2.2

/-- A closing brace or a further declaration is no `else`. -/
theorem Body.Declarations.noElse (body : Body) (derived : body.Declarations) {rest : List Token}
    (behind : NoElse rest) : NoElse (body.tokens ++ rest) := by
  cases body with
  | nil => exact behind
  | cons row body =>
      obtain ⟨first, more, same, starts⟩ := (derived row List.mem_cons_self).starts
      simp only [Body.tokens, List.map_cons, List.flatten_cons, same, List.cons_append]
      intro token isFirst
      cases isFirst
      exact starts.kind.2

theorem Body.Declarations.tail {row : List Token × Stmt Unit × Bool} {body : Body}
    (derived : Body.Declarations (row :: body)) : body.Declarations :=
  fun other member => derived other (List.mem_cons_of_mem _ member)

theorem Body.Read.tail {row : List Token × Stmt Unit × Bool} {body : Body}
    (read : Body.Read trailing (row :: body)) : body.Read trailing :=
  fun other member => read other (List.mem_cons_of_mem _ member)

/-- The declarations of a block are read with the brace that closes it. -/
theorem Body.Read.block_clean {body : Body} (read : body.Read trailing)
    (derived : body.Declarations) {right : Token} (isRight : right.kind = .symbol .rightBrace)
    (rest : List Token) :
    (block trailing (body.tokens ++ right :: rest)).Clean body.statements rest := by
  induction body with
  | nil =>
      show (block trailing (right :: rest)).Clean [] rest
      rw [block, if_pos (Token.isSymbol_iff.2 isRight)]
      simp
  | cons row body ih =>
      obtain ⟨first, more, same, reads⟩ := read row List.mem_cons_self
      obtain ⟨_, _, same', starts⟩ := (derived row List.mem_cons_self).starts
      have others := ih read.tail derived.tail
      have noElse : NoElse (Body.tokens body ++ right :: rest) :=
        Body.Declarations.noElse body derived.tail (by simp [NoElse, isRight])
      have tokens : Body.tokens (row :: body) ++ right :: rest =
          first :: (more ++ (Body.tokens body ++ right :: rest)) := by
        simp [Body.tokens, same]
      have noRight : ¬ first.isSymbol .rightBrace = true := by
        rw [same] at same'
        cases same'
        exact fun isSymbol => starts.kind.1 (Token.isSymbol_iff.1 isSymbol)
      have one := reads _ fun _ => noElse
      rw [tokens, block, if_neg noRight, clean_declaration_andThen]
      refine ⟨row.2.1, _, ?_, Body.statements body, one, others, rfl⟩
      simp only [List.length_append, List.length_cons]
      omega

/-- Methods are read up to the brace that closes their class. -/
theorem methods_clean {rows : List (List Token × FunctionDecl Unit)}
    (read : ∀ row ∈ rows, Form.Reads trailing .function row.1 (.funDecl row.2) false)
    (derived : ∀ row ∈ rows, Statement .function row.1 (.funDecl row.2) false) {right : Token}
    (isRight : right.kind = .symbol .rightBrace) (rest : List Token) :
    (methods trailing ((rows.map Prod.fst).flatten ++ right :: rest)).Clean (rows.map Prod.snd)
      (right :: rest) := by
  induction rows with
  | nil =>
      show (methods trailing (right :: rest)).Clean [] (right :: rest)
      rw [methods, if_pos (Token.isSymbol_iff.2 isRight)]
      simp
  | cons row rows ih =>
      obtain ⟨function, same, reads⟩ := read row List.mem_cons_self
      cases same
      obtain ⟨first, more, same, isName⟩ := (derived row List.mem_cons_self).starts
      have others := ih (fun other member => read other (List.mem_cons_of_mem _ member))
        fun other member => derived other (List.mem_cons_of_mem _ member)
      have one := reads .method ((rows.map Prod.fst).flatten ++ right :: rest)
      have noRight : ¬ first.isSymbol .rightBrace = true := by
        have isName : first.kind = .identifier := isName
        simp [Token.isSymbol, isName]
      rw [List.map_cons, List.flatten_cons, List.append_assoc, same, List.cons_append]
      rw [same, List.cons_append] at one
      rw [methods, if_neg noRight, clean_behind, clean_andPerhaps]
      refine ⟨row.2, _, one.length_lt, one, ?_⟩
      rw [clean_map]
      exact ⟨_, others, rfl⟩

/-- A statement that starts like an expression is read as one. -/
theorem statement_of_startsExpression {m : Type → Type} [Monad m] {ρ : Type} [Labelling m ρ]
    {first : Token} (starts : StartsExpression first) (tokens : List Token) :
    Lox.statement (m := m) trailing (first :: tokens) =
      expressionStatement trailing (first :: tokens) := by
  rw [Lox.statement]
  split
  · next same => exact (starts.not_keyword same (by decide)).elim
  · next same => exact (starts.not_keyword same (by decide)).elim
  · next same => exact (starts.not_keyword same (by decide)).elim
  · next same => exact (starts.not_keyword same (by decide)).elim
  · next same => exact (starts.not_symbol same (by decide)).elim
  · next same => exact (starts.not_keyword same (by decide)).elim
  · rfl

/-- A declaration that starts like a statement is read as one. -/
theorem declaration_of_startsStatement {m : Type → Type} [Monad m] {ρ : Type} [Labelling m ρ]
    {first : Token} (starts : StartsStatement first) (tokens : List Token) :
    declaration (m := m) trailing first tokens =
      Declarer.ofReader (Lox.statement trailing (first :: tokens)) := by
  rw [declaration]
  congr 1
  split
  · next same => exact (starts.kind.1 same).elim
  · next same => exact (starts.kind.2.1 same).elim
  · next same => exact (starts.kind.2.2 same).elim
  · rfl

/-- What the grammar derives is read as its tree. -/
theorem Statement.reads {form : Form} {tokens : List Token} {stmt : Stmt Unit} {dangling : Bool}
    (derived : Statement form tokens stmt dangling) : form.Reads trailing tokens stmt dangling := by
  induction derived with
  | @classDecl opening name left right tokens rows isClass isName isLeft derived joined isRight ih =>
      refine ⟨opening, _, rfl, fun rest _ => ?_⟩
      have inner := methods_clean ih derived isRight rest
      rw [Lox.declaration, Declarer.clean_ofReader]
      simp only [isClass, clean_behind]
      rw [List.cons_append, List.cons_append, List.append_assoc, List.cons_append, List.nil_append,
        joined, classDeclaration, clean_andThen]
      refine ⟨name, _, Nat.lt_succ_self _, clean_expect_identifier isName, ?_⟩
      rw [clean_andPerhaps]
      refine ⟨left, _, Nat.lt_succ_self _, clean_expect_symbol isLeft, ?_⟩
      rw [clean_andThen]
      refine ⟨_, _, inner.length_lt, inner, ?_⟩
      rw [clean_map]
      exact ⟨right, clean_expect_symbol isRight, rfl⟩
  | @funDecl opening tokens stmt isFun _ ih =>
      obtain ⟨function, rfl, reads⟩ := ih
      refine ⟨opening, _, rfl, fun rest _ => ?_⟩
      rw [Lox.declaration, Declarer.clean_ofReader]
      simp only [isFun, clean_behind]
      rw [clean_map]
      exact ⟨function, reads .function rest, rfl⟩
  | varDecl whole =>
      obtain ⟨first, more, rfl, isVar⟩ := whole.starts
      refine ⟨first, more, rfl, fun rest _ => ?_⟩
      rw [Lox.declaration, Declarer.clean_ofReader]
      simp only [isVar, clean_behind]
      exact whole.clean rest
  | statement derived ih =>
      obtain ⟨first, more, rfl, starts⟩ := derived.starts
      refine ⟨first, more, rfl, fun rest noElse => ?_⟩
      rw [declaration_of_startsStatement starts, Declarer.clean_ofReader]
      exact ih rest noElse
  | @function name left right opening closing inside tokens parameters rows isName isLeft separated
      areNames few isRight isOpening derived joined isClosing ih =>
      refine ⟨_, rfl, fun kind rest => ?_⟩
      have inner := Body.Read.block_clean ih derived isClosing rest
      have head := functionHead_clean kind isName isLeft separated areNames few isRight
        isOpening (Body.tokens rows ++ closing :: rest)
      have tokens : name :: left :: (inside ++ right :: opening :: (tokens ++ [closing])) ++ rest =
          name :: left :: (inside ++ right :: opening :: (Body.tokens rows ++ closing :: rest)) := by
        simp [joined, Body.tokens]
      rw [tokens, Lox.function, clean_andThen]
      refine ⟨_, _, head.length_lt, head, ?_⟩
      rw [clean_map]
      exact ⟨_, inner, rfl⟩
  | expression whole =>
      intro rest _
      have inner := whole.clean trailing rest
      obtain ⟨first, more, rfl, starts⟩ := whole.starts
      rw [List.cons_append, statement_of_startsExpression starts]
      exact inner
  | @loop opening left semicolon right first second third tokens initializer condition increment body
      dangling isFor isLeft before guard isSemicolon step isRight _ ih =>
      intro rest noElse
      have head := loopClauses_clean trailing isLeft before guard isSemicolon step isRight
        (tokens ++ rest)
      have tokens :
          opening :: left :: (first ++ second ++ semicolon :: (third ++ right :: tokens)) ++
          rest = opening :: left ::
            (first ++ (second ++ semicolon :: (third ++ right :: (tokens ++ rest)))) := by
        simp
      rw [tokens, Lox.statement]
      simp only [isFor, clean_behind]
      rw [clean_andThen]
      refine ⟨_, _, head.length_lt, head, ?_⟩
      rw [clean_map]
      exact ⟨body, ih rest noElse, (loopTree_eq ..).symm⟩
  | @conditional opening left right guard tokens condition onTrue dangling isIf isLeft test isRight
      _ ih =>
      intro rest noElse
      have behind := noElse rfl
      have head := condition_clean .noIfCondition .ifConditionNotClosed isLeft test isRight
        (tokens ++ rest)
      have branch := ih rest fun _ => behind
      have tokens : opening :: left :: (guard ++ right :: tokens) ++ rest =
          opening :: left :: (guard ++ right :: (tokens ++ rest)) := by
        simp
      rw [tokens, Lox.statement]
      simp only [isIf, clean_behind]
      rw [clean_andThen]
      refine ⟨_, _, head.length_lt, head, ?_⟩
      rw [clean_andPerhaps]
      refine ⟨onTrue, _, branch.length_lt, branch, ?_⟩
      rw [clean_map]
      refine ⟨none, ?_, rfl⟩
      cases rest with
      | nil => simp [Lox.alternative]
      | cons token rest =>
          have noWord : ¬ token.isKeyword .elseWord = true :=
            fun same => behind token rfl (Token.isKeyword_iff.1 same)
          rw [Lox.alternative, if_neg noWord]
          simp
  | @alternative opening left right otherwise guard tokens others condition onTrue onFalse dangling
      isIf isLeft test isRight _ isElse _ ih ih' =>
      intro rest noElse
      have head := condition_clean .noIfCondition .ifConditionNotClosed isLeft test isRight
        (tokens ++ otherwise :: (others ++ rest))
      have branch := ih (otherwise :: (others ++ rest)) (by simp)
      have other := ih' rest noElse
      have tokens : opening :: left :: (guard ++ right :: (tokens ++ otherwise :: others)) ++ rest =
          opening :: left :: (guard ++ right :: (tokens ++ otherwise :: (others ++ rest))) := by
        simp
      rw [tokens, Lox.statement]
      simp only [isIf, clean_behind]
      rw [clean_andThen]
      refine ⟨_, _, head.length_lt, head, ?_⟩
      rw [clean_andPerhaps]
      refine ⟨onTrue, _, branch.length_lt, branch, ?_⟩
      rw [clean_map, Lox.alternative, if_pos (Token.isKeyword_iff.2 isElse)]
      refine ⟨some onFalse, ?_, rfl⟩
      rw [clean_behind, clean_behind, clean_map]
      exact ⟨onFalse, other, rfl⟩
  | @print opening semicolon tokens expr isPrint whole isSemicolon =>
      intro rest _
      rw [List.cons_append, List.append_assoc, List.cons_append, List.nil_append, Lox.statement]
      simp only [isPrint, clean_behind]
      rw [printStatement]
      exact whole.clean_expect (f := fun expr _ => Stmt.print expr) isSemicolon (.inl isSemicolon)
  | @returning opening semicolon tokens value isReturn whole isSemicolon =>
      intro rest _
      have inner := whole.clean rest isSemicolon (.inl isSemicolon) (by decide)
      rw [List.cons_append, List.append_assoc, List.cons_append, List.nil_append, Lox.statement]
      simp only [isReturn]
      rw [returnStatement, clean_andThen]
      refine ⟨value, _, inner.length_lt, inner, ?_⟩
      rw [clean_map]
      exact ⟨semicolon, clean_expect_symbol isSemicolon, rfl⟩
  | @whileLoop opening left right guard tokens condition body dangling isWhile isLeft test isRight _
      ih =>
      intro rest noElse
      have head := condition_clean .noWhileCondition .whileConditionNotClosed isLeft test isRight
        (tokens ++ rest)
      have tokens : opening :: left :: (guard ++ right :: tokens) ++ rest =
          opening :: left :: (guard ++ right :: (tokens ++ rest)) := by
        simp
      rw [tokens, Lox.statement]
      simp only [isWhile, clean_behind]
      rw [clean_andThen]
      refine ⟨_, _, head.length_lt, head, ?_⟩
      rw [clean_map]
      exact ⟨body, ih rest noElse, rfl⟩
  | @block left right tokens rows isLeft derived joined isRight ih =>
      intro rest _
      have inner := Body.Read.block_clean ih derived isRight rest
      have tokens : left :: (tokens ++ [right]) ++ rest =
          left :: (Body.tokens rows ++ right :: rest) := by
        simp [joined, Body.tokens]
      rw [tokens, Lox.statement]
      simp only [isLeft, clean_behind]
      rw [clean_map]
      exact ⟨_, inner, rfl⟩

end Lox.Grammar
