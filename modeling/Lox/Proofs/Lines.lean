/-
# Trees on other lines

A text whose tokens stand on other lines is read as the same trees with their
tokens on these lines (`Grammar.ProgramTree.relined`), for the grammar never looks
at a line.  Where the tokens of a text stand further down, all lines grow by the
same number; but nothing here depends on what the new lines are, so they are given
by a function of the old ones.
-/

import Lox.Proofs.Grammar.Program

namespace Lox

variable {ρ : Type} {f : Nat → Nat}

/-- The same token on another line, which depends on its line. -/
def Token.relined (f : Nat → Nat) (token : Token) : Token :=
  { token with line := f token.line }

theorem Token.lexeme_relined (token : Token) : (token.relined f).lexeme = token.lexeme :=
  rfl

/-- The same error on another line, which depends on its line. -/
def StaticError.relined (f : Nat → Nat) : StaticError → StaticError
  | lexical fault line => .lexical fault (f line)
  | grammatical fault place => .grammatical fault (place.relined f)
  | scoping fault place => .scoping fault (place.relined f)

namespace Expr

mutual

/-- The same expression on other lines. -/
def relined (f : Nat → Nat) : Expr ρ → Expr ρ
  | literal value => .literal value
  | grouping inner => .grouping (inner.relined f)
  | unary operator operand => .unary (operator.relined f) (operand.relined f)
  | binary left operator right =>
    .binary (left.relined f) (operator.relined f) (right.relined f)
  | logical left operator right =>
    .logical (left.relined f) (operator.relined f) (right.relined f)
  | .variable reference name => .variable reference (name.relined f)
  | assign reference name value => .assign reference (name.relined f) (value.relined f)
  | call callee paren arguments =>
    .call (callee.relined f) (paren.relined f) (allRelined f arguments)
  | get object name => .get (object.relined f) (name.relined f)
  | set object name value =>
    .set (object.relined f) (name.relined f) (value.relined f)
  | this reference keyword => .this reference (keyword.relined f)

/-- The same expressions on other lines. -/
def allRelined (f : Nat → Nat) : List (Expr ρ) → List (Expr ρ)
  | [] => []
  | expr :: rest => expr.relined f :: allRelined f rest

end

theorem allRelined_eq_map (exprs : List (Expr ρ)) :
    allRelined f exprs = exprs.map (relined f) := by
  induction exprs with
  | nil => rfl
  | cons expr rest ih => rw [allRelined, ih, List.map_cons]

end Expr

namespace Stmt

mutual

/-- The same statement on other lines. -/
def relined (f : Nat → Nat) : Stmt ρ → Stmt ρ
  | expression expr => .expression (expr.relined f)
  | print expr => .print (expr.relined f)
  | varDecl name none => .varDecl (name.relined f) none
  | varDecl name (some expr) => .varDecl (name.relined f) (some (expr.relined f))
  | block body => .block (allRelined f body)
  | conditional condition onTrue none =>
    .conditional (condition.relined f) (onTrue.relined f) none
  | conditional condition onTrue (some onFalse) =>
    .conditional (condition.relined f) (onTrue.relined f) (some (onFalse.relined f))
  | whileLoop condition body => .whileLoop (condition.relined f) (body.relined f)
  | funDecl declaration => .funDecl (functionRelined f declaration)
  | returning keyword none => .returning (keyword.relined f) none
  | returning keyword (some expr) => .returning (keyword.relined f) (some (expr.relined f))
  | classDecl name methods => .classDecl (name.relined f) (methodsRelined f methods)

/-- The same function on other lines. -/
def functionRelined (f : Nat → Nat) : FunctionDecl ρ → FunctionDecl ρ
  | .mk name parameters body =>
    .mk (name.relined f) (parameters.map (Token.relined f)) (allRelined f body)

/-- The same methods on other lines. -/
def methodsRelined (f : Nat → Nat) : List (FunctionDecl ρ) → List (FunctionDecl ρ)
  | [] => []
  | method :: rest => functionRelined f method :: methodsRelined f rest

/-- The same statements on other lines. -/
def allRelined (f : Nat → Nat) : List (Stmt ρ) → List (Stmt ρ)
  | [] => []
  | stmt :: rest => stmt.relined f :: allRelined f rest

end

theorem allRelined_eq_map (stmts : List (Stmt ρ)) :
    allRelined f stmts = stmts.map (relined f) := by
  induction stmts with
  | nil => rfl
  | cons stmt rest ih => rw [allRelined, ih, List.map_cons]

theorem allRelined_append (stmts more : List (Stmt ρ)) :
    allRelined f (stmts ++ more) = allRelined f stmts ++ allRelined f more := by
  rw [allRelined_eq_map, allRelined_eq_map, allRelined_eq_map, List.map_append]

theorem methodsRelined_eq_map (methods : List (FunctionDecl ρ)) :
    methodsRelined f methods = methods.map (functionRelined f) := by
  induction methods with
  | nil => rfl
  | cons method rest ih => rw [methodsRelined, ih, List.map_cons]

end Stmt

/-! ## One line after the other -/

@[simp] theorem Token.relined_relined (f g : Nat → Nat) (token : Token) :
    (token.relined f).relined g = token.relined (g ∘ f) :=
  rfl

@[simp] theorem Token.map_relined_relined (f g : Nat → Nat) (tokens : List Token) :
    (tokens.map (relined f)).map (relined g) = tokens.map (relined (g ∘ f)) := by
  rw [List.map_map]
  rfl

theorem StaticError.relined_id (error : StaticError) : error.relined id = error := by
  cases error <;> rfl

namespace Expr

mutual

theorem relined_relined (f g : Nat → Nat) (expr : Expr ρ) :
    (expr.relined f).relined g = expr.relined (g ∘ f) := by
  match expr with
  | literal value => rfl
  | grouping inner => simp only [relined, relined_relined f g inner]
  | unary operator operand =>
      simp only [relined, Token.relined_relined, relined_relined f g operand]
  | binary left operator right =>
      simp only [relined, Token.relined_relined, relined_relined f g left,
        relined_relined f g right]
  | logical left operator right =>
      simp only [relined, Token.relined_relined, relined_relined f g left,
        relined_relined f g right]
  | .variable reference name => rfl
  | assign reference name value =>
      simp only [relined, Token.relined_relined, relined_relined f g value]
  | call callee paren arguments =>
      simp only [relined, Token.relined_relined, relined_relined f g callee,
        allRelined_allRelined f g arguments]
  | get object name => simp only [relined, Token.relined_relined, relined_relined f g object]
  | set object name value =>
      simp only [relined, Token.relined_relined, relined_relined f g object,
        relined_relined f g value]
  | this reference keyword => rfl

theorem allRelined_allRelined (f g : Nat → Nat) (exprs : List (Expr ρ)) :
    allRelined g (allRelined f exprs) = allRelined (g ∘ f) exprs := by
  match exprs with
  | [] => rfl
  | expr :: rest =>
      simp only [allRelined, relined_relined f g expr, allRelined_allRelined f g rest]

end

mutual

theorem relined_id (expr : Expr ρ) : expr.relined id = expr := by
  match expr with
  | literal value => rfl
  | grouping inner => exact congrArg _ (relined_id inner)
  | unary operator operand => exact congrArg _ (relined_id operand)
  | binary left operator right =>
      exact congrArg₂ (Expr.binary · operator ·) (relined_id left) (relined_id right)
  | logical left operator right =>
      exact congrArg₂ (Expr.logical · operator ·) (relined_id left) (relined_id right)
  | .variable reference name => rfl
  | assign reference name value => exact congrArg _ (relined_id value)
  | call callee paren arguments =>
      exact congrArg₂ (Expr.call · paren ·) (relined_id callee) (allRelined_id arguments)
  | get object name => exact congrArg (Expr.get · name) (relined_id object)
  | set object name value =>
      exact congrArg₂ (Expr.set · name ·) (relined_id object) (relined_id value)
  | this reference keyword => rfl

theorem allRelined_id (exprs : List (Expr ρ)) : allRelined id exprs = exprs := by
  match exprs with
  | [] => rfl
  | expr :: rest => exact congrArg₂ List.cons (relined_id expr) (allRelined_id rest)

end

end Expr

namespace Stmt

mutual

theorem relined_relined (f g : Nat → Nat) (stmt : Stmt ρ) :
    (stmt.relined f).relined g = stmt.relined (g ∘ f) := by
  match stmt with
  | expression expr => simp only [relined, expr.relined_relined]
  | print expr => simp only [relined, expr.relined_relined]
  | varDecl name none => rfl
  | varDecl name (some expr) => simp only [relined, Token.relined_relined, expr.relined_relined]
  | block body => simp only [relined, allRelined_allRelined f g body]
  | conditional condition onTrue none =>
      simp only [relined, condition.relined_relined, relined_relined f g onTrue]
  | conditional condition onTrue (some onFalse) =>
      simp only [relined, condition.relined_relined, relined_relined f g onTrue,
        relined_relined f g onFalse]
  | whileLoop condition body =>
      simp only [relined, condition.relined_relined, relined_relined f g body]
  | funDecl declaration => simp only [relined, functionRelined_functionRelined f g declaration]
  | returning keyword none => rfl
  | returning keyword (some expr) =>
      simp only [relined, Token.relined_relined, expr.relined_relined]
  | classDecl name methods =>
      simp only [relined, Token.relined_relined, methodsRelined_methodsRelined f g methods]

theorem functionRelined_functionRelined (f g : Nat → Nat) (declaration : FunctionDecl ρ) :
    functionRelined g (functionRelined f declaration) = functionRelined (g ∘ f) declaration := by
  match declaration with
  | .mk name parameters body =>
      simp only [functionRelined, Token.relined_relined, Token.map_relined_relined,
        allRelined_allRelined f g body]

theorem methodsRelined_methodsRelined (f g : Nat → Nat) (methods : List (FunctionDecl ρ)) :
    methodsRelined g (methodsRelined f methods) = methodsRelined (g ∘ f) methods := by
  match methods with
  | [] => rfl
  | method :: rest =>
      simp only [methodsRelined, functionRelined_functionRelined f g method,
        methodsRelined_methodsRelined f g rest]

theorem allRelined_allRelined (f g : Nat → Nat) (stmts : List (Stmt ρ)) :
    allRelined g (allRelined f stmts) = allRelined (g ∘ f) stmts := by
  match stmts with
  | [] => rfl
  | stmt :: rest =>
      simp only [allRelined, relined_relined f g stmt, allRelined_allRelined f g rest]

end

mutual

theorem relined_id (stmt : Stmt ρ) : stmt.relined id = stmt := by
  match stmt with
  | expression expr => exact congrArg _ expr.relined_id
  | print expr => exact congrArg _ expr.relined_id
  | varDecl name none => rfl
  | varDecl name (some expr) => exact congrArg (Stmt.varDecl name ∘ some) expr.relined_id
  | block body => exact congrArg _ (allRelined_id body)
  | conditional condition onTrue none =>
      exact congrArg₂ (Stmt.conditional · · none) condition.relined_id (relined_id onTrue)
  | conditional condition onTrue (some onFalse) =>
      show Stmt.conditional _ _ (some _) = _
      rw [condition.relined_id, relined_id onTrue, relined_id onFalse]
  | whileLoop condition body =>
      exact congrArg₂ Stmt.whileLoop condition.relined_id (relined_id body)
  | funDecl declaration => exact congrArg _ (functionRelined_id declaration)
  | returning keyword none => rfl
  | returning keyword (some expr) =>
      exact congrArg (Stmt.returning keyword ∘ some) expr.relined_id
  | classDecl name methods => exact congrArg _ (methodsRelined_id methods)

theorem functionRelined_id (declaration : FunctionDecl ρ) :
    functionRelined id declaration = declaration := by
  match declaration with
  | .mk name parameters body =>
      exact congrArg₂ (FunctionDecl.mk name) (List.map_id parameters) (allRelined_id body)

theorem methodsRelined_id (methods : List (FunctionDecl ρ)) :
    methodsRelined id methods = methods := by
  match methods with
  | [] => rfl
  | method :: rest =>
      exact congrArg₂ List.cons (functionRelined_id method) (methodsRelined_id rest)

theorem allRelined_id (stmts : List (Stmt ρ)) : allRelined id stmts = stmts := by
  match stmts with
  | [] => rfl
  | stmt :: rest => exact congrArg₂ List.cons (relined_id stmt) (allRelined_id rest)

end

end Stmt

/-! ## What is read on other lines -/

namespace Grammar

/-- Rows stay separated on other f. -/
theorem Separated.relined {rows : List (List Token)} {tokens : List Token}
    (separated : Separated rows tokens) (f : Nat → Nat) :
    Separated (rows.map (List.map (Token.relined f))) (tokens.map (Token.relined f)) := by
  induction separated with
  | none => exact .none
  | one tokens => exact .one _
  | more isComma _ ih =>
      rw [List.map_append, List.map_cons]
      exact .more isComma ih

theorem relined_node (level : Precedence) (left right : Expr Unit) (operator : Token) :
    (level.node left operator right).relined f =
      level.node (left.relined f) (operator.relined f) (right.relined f) := by
  cases level <;> rfl

/-- Tokens on other lines derive the same expression on these lines. -/
theorem Expression.relined {tier : Tier} {tokens : List Token} {expr : Expr Unit}
    (derived : Expression tier tokens expr) (f : Nat → Nat) :
    Expression tier (tokens.map (Token.relined f)) (expr.relined f) := by
  induction derived with
  | assignVariable isName isEqual _ ih => exact .assignVariable isName isEqual ih
  | assignProperty _ isDot isName isEqual _ ih ih' =>
      rw [List.map_append]
      exact .assignProperty ih isDot isName isEqual ih'
  | unassigned _ ih => exact .unassigned ih
  | operation _ listed same _ ih ih' =>
      rw [List.map_append, List.map_cons, relined_node]
      exact .operation ih listed same ih'
  | operand _ ih => exact .operand ih
  | unary isOperator _ ih => exact .unary isOperator ih
  | noPrefix _ ih => exact .noPrefix ih
  | @call _ inside _ _ _ rows _ isOpening separated _ few isClosing ih ih' =>
      let rows' := rows.map fun row => (row.1.map (Token.relined f), row.2.relined f)
      have separated' : Separated (rows'.map Prod.fst) (inside.map (Token.relined f)) := by
        have onLines := separated.relined f
        rw [List.map_map] at onLines ⊢
        exact onLines
      have each : ∀ row ∈ rows', Expression .assignment row.1 row.2 :=
        List.forall_mem_map.2 ih'
      have trees : Expr.allRelined f (rows.map Prod.snd) = rows'.map Prod.snd := by
        rw [Expr.allRelined_eq_map, List.map_map, List.map_map]
        rfl
      rw [List.map_append, List.map_cons, List.map_append, Expr.relined, trees]
      exact .call ih isOpening separated' each (by rwa [List.length_map]) isClosing
  | property _ isDot isName ih =>
      rw [List.map_append]
      exact .property ih isDot isName
  | primary _ ih => exact .primary ih
  | number same => exact .number same
  | string same => exact .string same
  | trueWord same => exact .trueWord same
  | falseWord same => exact .falseWord same
  | nilWord same => exact .nilWord same
  | thisWord same => exact .thisWord same
  | reference same => exact .reference same
  | grouping isOpening _ isClosing ih =>
      rw [List.map_cons, List.map_append]
      exact .grouping isOpening ih isClosing

theorem OptionalExpression.relined {tokens : List Token} {expr : Option (Expr Unit)}
    (derived : OptionalExpression tokens expr) (f : Nat → Nat) :
    OptionalExpression (tokens.map (Token.relined f)) (expr.map (Expr.relined f)) := by
  cases derived with
  | absent => exact .absent
  | present whole => exact .present (whole.relined f)

theorem ExpressionStatement.relined {tokens : List Token} {stmt : Stmt Unit}
    (derived : ExpressionStatement tokens stmt) (f : Nat → Nat) :
    ExpressionStatement (tokens.map (Token.relined f)) (stmt.relined f) := by
  cases derived with
  | intro whole isSemicolon =>
      rw [List.map_append]
      exact .intro (whole.relined f) isSemicolon

theorem VariableDeclaration.relined {tokens : List Token} {stmt : Stmt Unit}
    (derived : VariableDeclaration tokens stmt) (f : Nat → Nat) :
    VariableDeclaration (tokens.map (Token.relined f)) (stmt.relined f) := by
  cases derived with
  | bare isVar isName isSemicolon => exact .bare isVar isName isSemicolon
  | initialized isVar isName isEqual source isSemicolon =>
      simp only [List.map_cons, List.map_append]
      exact .initialized isVar isName isEqual (source.relined f) isSemicolon

theorem Initializer.relined {tokens : List Token} {stmt : Option (Stmt Unit)}
    (derived : Initializer tokens stmt) (f : Nat → Nat) :
    Initializer (tokens.map (Token.relined f)) (stmt.map (Stmt.relined f)) := by
  cases derived with
  | absent isSemicolon => exact .absent isSemicolon
  | declaration whole => exact .declaration (whole.relined f)
  | expression whole => exact .expression (whole.relined f)

theorem relined_loopTree (initializer : Option (Stmt Unit))
    (condition increment : Option (Expr Unit)) (body : Stmt Unit) :
    (loopTree initializer condition increment body).relined f =
      loopTree (initializer.map (Stmt.relined f)) (condition.map (Expr.relined f))
        (increment.map (Expr.relined f)) (body.relined f) := by
  cases initializer <;> cases condition <;> cases increment <;> rfl

/-- A row of tokens and its tree on other lines. -/
def Body.relinedRow (f : Nat → Nat) (row : List Token × Stmt Unit × Bool) :
    List Token × Stmt Unit × Bool :=
  (row.1.map (Token.relined f), row.2.1.relined f, row.2.2)

theorem Body.tokens_relined (rows : List (List Token × Stmt Unit × Bool)) :
    ((rows.map Prod.fst).flatten).map (Token.relined f) =
      ((rows.map (relinedRow f)).map Prod.fst).flatten := by
  rw [List.map_flatten, List.map_map, List.map_map]
  rfl

theorem Body.statements_relined (rows : List (List Token × Stmt Unit × Bool)) :
    Stmt.allRelined f (rows.map fun row => row.2.1) =
      (rows.map (relinedRow f)).map fun row => row.2.1 := by
  rw [Stmt.allRelined_eq_map, List.map_map, List.map_map]
  rfl

/-- Tokens on other lines derive the same statement on these lines. -/
theorem Statement.relined {form : Form} {tokens : List Token} {stmt : Stmt Unit} {dangling : Bool}
    (derived : Statement form tokens stmt dangling) (f : Nat → Nat) :
    Statement form (tokens.map (Token.relined f)) (stmt.relined f) dangling := by
  induction derived with
  | @classDecl _ _ _ _ _ rows isClass isName isLeft _ joined isRight ih =>
      let rows' := rows.map fun row => (row.1.map (Token.relined f), Stmt.functionRelined f row.2)
      have each : ∀ row ∈ rows', Statement .function row.1 (.funDecl row.2) false :=
        List.forall_mem_map.2 ih
      have trees : Stmt.methodsRelined f (rows.map Prod.snd) = rows'.map Prod.snd := by
        rw [Stmt.methodsRelined_eq_map, List.map_map, List.map_map]
        rfl
      simp only [List.map_cons, List.map_append]
      rw [Stmt.relined, trees]
      refine .classDecl isClass isName isLeft each ?_ isRight
      rw [joined, List.map_flatten, List.map_map, List.map_map]
      rfl
  | funDecl isFun _ ih => exact .funDecl isFun ih
  | varDecl whole => exact .varDecl (whole.relined f)
  | statement _ ih => exact .statement ih
  | @function _ _ _ _ _ inside _ parameters rows isName isLeft separated areNames few isRight
      isOpening _ joined isClosing ih =>
      have separated' : Separated ((parameters.map (Token.relined f)).map fun parameter =>
          [parameter]) (inside.map (Token.relined f)) := by
        have onLines := separated.relined f
        rw [List.map_map] at onLines ⊢
        exact onLines
      have each : ∀ row ∈ rows.map (Body.relinedRow f),
          Statement .declaration row.1 row.2.1 row.2.2 := List.forall_mem_map.2 ih
      simp only [List.map_cons, List.map_append]
      rw [Stmt.relined, Stmt.functionRelined, Body.statements_relined]
      refine .function isName isLeft separated' (List.forall_mem_map.2 areNames)
        (by rwa [List.length_map]) isRight isOpening each ?_ isClosing
      rw [joined, Body.tokens_relined]
  | expression whole => exact .expression (whole.relined f)
  | loop isFor isLeft before guard isSemicolon step isRight _ ih =>
      simp only [List.map_cons, List.map_append]
      rw [relined_loopTree]
      exact .loop isFor isLeft (before.relined f) (guard.relined f) isSemicolon
        (step.relined f) isRight ih
  | conditional isIf isLeft test isRight _ ih =>
      simp only [List.map_cons, List.map_append]
      exact .conditional isIf isLeft (test.relined f) isRight ih
  | alternative isIf isLeft test isRight _ isElse _ ih ih' =>
      simp only [List.map_cons, List.map_append]
      exact .alternative isIf isLeft (test.relined f) isRight ih isElse ih'
  | print isPrint whole isSemicolon =>
      simp only [List.map_cons, List.map_append]
      exact .print isPrint (whole.relined f) isSemicolon
  | @returning opening semicolon tokens value isReturn whole isSemicolon =>
      simp only [List.map_cons, List.map_append]
      have returning : Statement .statement
          (opening.relined f :: (tokens.map (Token.relined f) ++ [semicolon.relined f]))
          (.returning (opening.relined f) (value.map (Expr.relined f))) false :=
        .returning isReturn (whole.relined f) isSemicolon
      cases value with
      | none => exact returning
      | some value => exact returning
  | whileLoop isWhile isLeft test isRight _ ih =>
      simp only [List.map_cons, List.map_append]
      exact .whileLoop isWhile isLeft (test.relined f) isRight ih
  | @block _ _ _ rows isLeft _ joined isRight ih =>
      have each : ∀ row ∈ rows.map (Body.relinedRow f),
          Statement .declaration row.1 row.2.1 row.2.2 := List.forall_mem_map.2 ih
      simp only [List.map_cons, List.map_append]
      rw [Stmt.relined, Body.statements_relined]
      refine .block isLeft each ?_ isRight
      rw [joined, Body.tokens_relined]

namespace ProgramTree

variable {tokens more : List Token} {statements others : List (Stmt Unit)}

/-- Tokens on other lines are the same program on these lines. -/
theorem relined (tree : ProgramTree tokens statements) (f : Nat → Nat) :
    ProgramTree (tokens.map (Token.relined f)) (Stmt.allRelined f statements) := by
  obtain ⟨rows, derived, rfl, rfl⟩ := tree
  refine ⟨rows.map (Body.relinedRow f), List.forall_mem_map.2 fun row member => ?_,
    Body.tokens_relined rows, Body.statements_relined rows⟩
  exact (derived row member).relined f

/-- Two programs one behind the other are a program. -/
theorem append (first : ProgramTree tokens statements) (second : ProgramTree more others) :
    ProgramTree (tokens ++ more) (statements ++ others) := by
  obtain ⟨rows, derived, rfl, rfl⟩ := first
  obtain ⟨rows', derived', rfl, rfl⟩ := second
  refine ⟨rows ++ rows', List.forall_mem_append.2 ⟨derived, derived'⟩, ?_, ?_⟩
  · rw [List.map_append, List.flatten_append]
  · rw [List.map_append]

end ProgramTree

end Grammar

end Lox
