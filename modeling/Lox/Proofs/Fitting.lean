/-
# Trees that fit the evaluator

The evaluator tells operators apart by a few cases and takes every other token for the
last one: what is not `!` negates, what is not `or` is `and`.  So it relies on the
shape of the trees that are read.  This module says what that shape is, node by node
(`Expr.Fits`) and statement by statement (`Stmt.Fits`), and that all trees have it
that are read, of whatever tokens and with whatever errors.

Where no error is reported no call has more arguments, and no function more parameters,
than the most that there may be (`Expr.Limited` and `Stmt.Limited`).
-/

import Lox.Proofs.Grammar.Trailing
import Lox.Proofs.Shape
import Lox.Proofs.SourceForm.Nodes

namespace Lox

variable {ρ : Type} {allowed : Token → Prop}

/-- The ten symbols that stand between two values. -/
def infixSymbols : List Symbol :=
  [.bangEqual, .equalEqual, .greater, .greaterEqual, .less, .lessEqual, .minus, .plus, .slash,
    .star]

namespace Expr

/-- The operator of a node is one that its form has, and its name is a name. -/
def Fits : Expr ρ → Prop
  | unary operator _ => operator.kind = .symbol .bang ∨ operator.kind = .symbol .minus
  | binary _ operator _ => ∃ symbol ∈ infixSymbols, operator.kind = .symbol symbol
  | logical _ operator _ =>
    operator.kind = .keyword .andWord ∨ operator.kind = .keyword .orWord
  | .variable _ name => name.kind = .identifier
  | assign _ name _ => name.kind = .identifier
  | get _ name => name.kind = .identifier
  | set _ name _ => name.kind = .identifier
  | _ => True

/-- A call has no more arguments than the most that there may be. -/
def Limited : Expr ρ → Prop
  | call _ _ arguments => arguments.length ≤ mostArguments
  | _ => True

end Expr

namespace FunctionDecl

/-- A function and its parameters are called by names. -/
def Fits : FunctionDecl ρ → Prop
  | mk name parameters _ =>
    name.kind = .identifier ∧ ∀ parameter ∈ parameters, parameter.kind = .identifier

end FunctionDecl

namespace Stmt

/-- What a statement declares has a name, and what it guards is no declaration. -/
def Fits : Stmt ρ → Prop
  | varDecl name _ => name.kind = .identifier
  | conditional _ onTrue onFalse =>
    onTrue.isDeclaration = false ∧ ∀ stmt ∈ onFalse, stmt.isDeclaration = false
  | whileLoop _ body => body.isDeclaration = false
  | funDecl declaration => declaration.Fits
  | classDecl name methods => name.kind = .identifier ∧ ∀ method ∈ methods, method.Fits
  | _ => True

/-- A function or a method has no more parameters than the most that there may be. -/
def Limited : Stmt ρ → Prop
  | funDecl declaration => declaration.parameters.length ≤ mostArguments
  | classDecl _ methods => ∀ method ∈ methods, method.parameters.length ≤ mostArguments
  | _ => True

mutual

/-- The statements that stand in a statement, itself in front. -/
def statements : Stmt ρ → List (Stmt ρ)
  | block body => .block body :: allStatements body
  | conditional condition onTrue none => .conditional condition onTrue none :: onTrue.statements
  | conditional condition onTrue (some onFalse) =>
    .conditional condition onTrue (some onFalse) :: (onTrue.statements ++ onFalse.statements)
  | whileLoop condition body => .whileLoop condition body :: body.statements
  | funDecl declaration => .funDecl declaration :: functionStatements declaration
  | classDecl name methods => .classDecl name methods :: methodStatements methods
  | expression expr => [.expression expr]
  | print expr => [.print expr]
  | varDecl name initializer => [.varDecl name initializer]
  | returning keyword value => [.returning keyword value]

/-- The statements that stand in the body of a function. -/
def functionStatements : FunctionDecl ρ → List (Stmt ρ)
  | .mk _ _ body => allStatements body

/-- The statements that stand in the bodies of methods. -/
def methodStatements : List (FunctionDecl ρ) → List (Stmt ρ)
  | [] => []
  | method :: rest => functionStatements method ++ methodStatements rest

/-- The statements that stand in a row of statements. -/
def allStatements : List (Stmt ρ) → List (Stmt ρ)
  | [] => []
  | stmt :: rest => stmt.statements ++ allStatements rest

end

theorem mem_statements_self (stmt : Stmt ρ) : stmt ∈ stmt.statements := by
  cases stmt with
  | conditional condition onTrue onFalse => cases onFalse <;> simp [statements]
  | _ => simp [statements]

theorem mem_allStatements {stmts : List (Stmt ρ)} {inner : Stmt ρ} :
    inner ∈ allStatements stmts ↔ ∃ stmt ∈ stmts, inner ∈ stmt.statements := by
  induction stmts with
  | nil => simp [allStatements]
  | cons stmt stmts ih => simp [allStatements, ih]

theorem mem_methodStatements {methods : List (FunctionDecl ρ)} {inner : Stmt ρ} :
    inner ∈ methodStatements methods ↔ ∃ method ∈ methods, inner ∈ functionStatements method := by
  induction methods with
  | nil => simp [methodStatements]
  | cons method methods ih => simp [methodStatements, ih]

end Stmt

/-! ## What stands in a shaped tree is shaped -/

namespace Expr

mutual

theorem shaped_nodes (expr : Expr ρ) (shaped : expr.Shaped allowed) :
    ∀ node ∈ expr.nodes, node.Shaped allowed := by
  match expr with
  | .literal _ => exact List.forall_mem_singleton.2 shaped
  | .grouping inner => exact List.forall_mem_cons.2 ⟨shaped, shaped_nodes inner shaped⟩
  | .unary _ operand => exact List.forall_mem_cons.2 ⟨shaped, shaped_nodes operand shaped.2.2⟩
  | .binary left _ right =>
      exact List.forall_mem_cons.2 ⟨shaped, List.forall_mem_append.2
        ⟨shaped_nodes left shaped.2.2.1, shaped_nodes right shaped.2.2.2⟩⟩
  | .logical left _ right =>
      exact List.forall_mem_cons.2 ⟨shaped, List.forall_mem_append.2
        ⟨shaped_nodes left shaped.2.2.1, shaped_nodes right shaped.2.2.2⟩⟩
  | .variable .. => exact List.forall_mem_singleton.2 shaped
  | .assign _ _ value => exact List.forall_mem_cons.2 ⟨shaped, shaped_nodes value shaped.2⟩
  | .call callee _ arguments =>
      exact List.forall_mem_cons.2 ⟨shaped, List.forall_mem_append.2
        ⟨shaped_nodes callee shaped.2.1, shaped_allNodes arguments shaped.2.2⟩⟩
  | .get object _ => exact List.forall_mem_cons.2 ⟨shaped, shaped_nodes object shaped.1⟩
  | .set object _ value =>
      exact List.forall_mem_cons.2 ⟨shaped, List.forall_mem_append.2
        ⟨shaped_nodes object shaped.1, shaped_nodes value shaped.2.2⟩⟩
  | .this .. => exact List.forall_mem_singleton.2 shaped

theorem shaped_allNodes (exprs : List (Expr ρ)) (shaped : AllShaped allowed exprs) :
    ∀ node ∈ allNodes exprs, node.Shaped allowed := by
  match exprs with
  | [] => exact List.forall_mem_nil _
  | expr :: rest =>
      exact List.forall_mem_append.2 ⟨shaped_nodes expr shaped.1, shaped_allNodes rest shaped.2⟩

end

end Expr

namespace Stmt

mutual

theorem shaped_nodes (stmt : Stmt ρ) (shaped : stmt.Shaped allowed) :
    ∀ node ∈ stmt.nodes, node.Shaped allowed := by
  match stmt with
  | .expression expr => exact expr.shaped_nodes shaped
  | .print expr => exact expr.shaped_nodes shaped
  | .varDecl _ none => exact List.forall_mem_nil _
  | .varDecl _ (some expr) => exact expr.shaped_nodes shaped.2
  | .block body => exact shaped_allNodes body shaped
  | .conditional condition onTrue none =>
      exact List.forall_mem_append.2
        ⟨condition.shaped_nodes shaped.1, shaped_nodes onTrue shaped.2.1⟩
  | .conditional condition onTrue (some onFalse) =>
      exact List.forall_mem_append.2 ⟨List.forall_mem_append.2
        ⟨condition.shaped_nodes shaped.1, shaped_nodes onTrue shaped.2.1.1⟩,
          shaped_nodes onFalse shaped.2.2.1⟩
  | .whileLoop condition body =>
      exact List.forall_mem_append.2
        ⟨condition.shaped_nodes shaped.1, shaped_nodes body shaped.2.1⟩
  | .funDecl declaration => exact shaped_functionNodes declaration shaped
  | .returning _ none => exact List.forall_mem_nil _
  | .returning _ (some expr) => exact expr.shaped_nodes shaped
  | .classDecl _ methods => exact shaped_methodNodes methods shaped.2

theorem shaped_functionNodes (declaration : FunctionDecl ρ)
    (shaped : FunctionShaped allowed declaration) :
    ∀ node ∈ functionNodes declaration, node.Shaped allowed := by
  match declaration with
  | .mk _ _ body => exact shaped_allNodes body shaped.2.2

theorem shaped_methodNodes (methods : List (FunctionDecl ρ))
    (shaped : MethodsShaped allowed methods) :
    ∀ node ∈ methodNodes methods, node.Shaped allowed := by
  match methods with
  | [] => exact List.forall_mem_nil _
  | method :: rest =>
      exact List.forall_mem_append.2
        ⟨shaped_functionNodes method shaped.1, shaped_methodNodes rest shaped.2⟩

theorem shaped_allNodes (stmts : List (Stmt ρ)) (shaped : AllShaped allowed stmts) :
    ∀ node ∈ allNodes stmts, node.Shaped allowed := by
  match stmts with
  | [] => exact List.forall_mem_nil _
  | stmt :: rest =>
      exact List.forall_mem_append.2 ⟨shaped_nodes stmt shaped.1, shaped_allNodes rest shaped.2⟩

end

mutual

theorem shaped_statements (stmt : Stmt ρ) (shaped : stmt.Shaped allowed) :
    ∀ inner ∈ stmt.statements, inner.Shaped allowed := by
  match stmt with
  | .block body => exact List.forall_mem_cons.2 ⟨shaped, shaped_allStatements body shaped⟩
  | .conditional _ onTrue none =>
      exact List.forall_mem_cons.2 ⟨shaped, shaped_statements onTrue shaped.2.1⟩
  | .conditional _ onTrue (some onFalse) =>
      exact List.forall_mem_cons.2 ⟨shaped, List.forall_mem_append.2
        ⟨shaped_statements onTrue shaped.2.1.1, shaped_statements onFalse shaped.2.2.1⟩⟩
  | .whileLoop _ body => exact List.forall_mem_cons.2 ⟨shaped, shaped_statements body shaped.2.1⟩
  | .funDecl declaration =>
      exact List.forall_mem_cons.2 ⟨shaped, shaped_functionStatements declaration shaped⟩
  | .classDecl _ methods =>
      exact List.forall_mem_cons.2 ⟨shaped, shaped_methodStatements methods shaped.2⟩
  | .expression _ => exact List.forall_mem_singleton.2 shaped
  | .print _ => exact List.forall_mem_singleton.2 shaped
  | .varDecl .. => exact List.forall_mem_singleton.2 shaped
  | .returning .. => exact List.forall_mem_singleton.2 shaped

theorem shaped_functionStatements (declaration : FunctionDecl ρ)
    (shaped : FunctionShaped allowed declaration) :
    ∀ inner ∈ functionStatements declaration, inner.Shaped allowed := by
  match declaration with
  | .mk _ _ body => exact shaped_allStatements body shaped.2.2

theorem shaped_methodStatements (methods : List (FunctionDecl ρ))
    (shaped : MethodsShaped allowed methods) :
    ∀ inner ∈ methodStatements methods, inner.Shaped allowed := by
  match methods with
  | [] => exact List.forall_mem_nil _
  | method :: rest =>
      exact List.forall_mem_append.2
        ⟨shaped_functionStatements method shaped.1, shaped_methodStatements rest shaped.2⟩

theorem shaped_allStatements (stmts : List (Stmt ρ)) (shaped : AllShaped allowed stmts) :
    ∀ inner ∈ allStatements stmts, inner.Shaped allowed := by
  match stmts with
  | [] => exact List.forall_mem_nil _
  | stmt :: rest =>
      exact List.forall_mem_append.2
        ⟨shaped_statements stmt shaped.1, shaped_allStatements rest shaped.2⟩

end

end Stmt

/-! ## What is shaped fits -/

theorem Token.JoinsValues.kind {operator : Token} (joins : operator.JoinsValues) :
    ∃ symbol ∈ infixSymbols, operator.kind = .symbol symbol := by
  obtain ⟨level, noDisjunction, noConjunction, accepted⟩ := joins
  obtain ⟨terminal, listed, same⟩ := Grammar.accepts_iff.1 accepted
  cases level with
  | disjunction => exact absurd rfl noDisjunction
  | conjunction => exact absurd rfl noConjunction
  | _ =>
      simp only [Grammar.operators, List.mem_cons, List.not_mem_nil, or_false] at listed
      rcases listed with rfl | rfl | rfl | rfl <;> exact ⟨_, by decide, same⟩

theorem Token.JoinsConditions.kind {operator : Token} (joins : operator.JoinsConditions) :
    operator.kind = .keyword .andWord ∨ operator.kind = .keyword .orWord := by
  rcases joins with accepted | accepted
  · obtain ⟨terminal, listed, same⟩ := Grammar.accepts_iff.1 accepted
    cases List.mem_singleton.1 listed
    exact .inr same
  · obtain ⟨terminal, listed, same⟩ := Grammar.accepts_iff.1 accepted
    cases List.mem_singleton.1 listed
    exact .inl same

theorem Expr.Shaped.fits {expr : Expr ρ} (shaped : expr.Shaped allowed) : expr.Fits := by
  cases expr with
  | unary operator operand => exact Grammar.isPrefixOperator_iff.1 shaped.2.1
  | binary left operator right => exact shaped.2.1.kind
  | logical left operator right => exact shaped.2.1.kind
  | «variable» reference name => exact shaped.2
  | assign reference name value => exact shaped.1.2
  | get object name => exact shaped.2.2
  | set object name value => exact shaped.2.1.2
  | _ => trivial

theorem Expr.AllShaped.fits {exprs : List (Expr ρ)} (shaped : AllShaped allowed exprs) :
    ∀ expr ∈ exprs, expr.Fits := by
  induction exprs with
  | nil => exact List.forall_mem_nil _
  | cons expr rest ih => exact List.forall_mem_cons.2 ⟨shaped.1.fits, ih shaped.2⟩

theorem Stmt.FunctionShaped.fits {declaration : FunctionDecl ρ}
    (shaped : FunctionShaped allowed declaration) : declaration.Fits := by
  obtain ⟨name, parameters, body⟩ := declaration
  exact ⟨shaped.1.2, fun parameter member => (shaped.2.1 parameter member).2⟩

theorem Stmt.MethodsShaped.fits {methods : List (FunctionDecl ρ)}
    (shaped : MethodsShaped allowed methods) : ∀ method ∈ methods, method.Fits := by
  induction methods with
  | nil => exact List.forall_mem_nil _
  | cons method rest ih => exact List.forall_mem_cons.2 ⟨FunctionShaped.fits shaped.1, ih shaped.2⟩

theorem Stmt.Shaped.fits {stmt : Stmt ρ} (shaped : stmt.Shaped allowed) : stmt.Fits := by
  cases stmt with
  | varDecl name initializer =>
      cases initializer with
      | none => exact shaped.2
      | some initializer => exact shaped.1.2
  | conditional condition onTrue onFalse =>
      cases onFalse with
      | none => exact ⟨shaped.2.2, nofun⟩
      | some onFalse =>
          refine ⟨shaped.2.1.2, ?_⟩
          rintro _ ⟨⟩
          exact shaped.2.2.2
  | whileLoop condition body => exact shaped.2.2
  | funDecl declaration => exact FunctionShaped.fits shaped
  | classDecl name methods => exact ⟨shaped.1.2, MethodsShaped.fits shaped.2⟩
  | _ => trivial

theorem Stmt.AllShaped.fits {stmts : List (Stmt ρ)} (shaped : AllShaped allowed stmts) :
    ∀ stmt ∈ stmts, stmt.Fits := by
  induction stmts with
  | nil => exact List.forall_mem_nil _
  | cons stmt rest ih => exact List.forall_mem_cons.2 ⟨shaped.1.fits, ih shaped.2⟩

/-! ## Where no error is reported -/

namespace Grammar

theorem Expression.limited {tier : Tier} {tokens : List Token} {expr : Expr Unit}
    (derived : Expression tier tokens expr) : expr.Limited := by
  induction derived with
  | unassigned _ ih => exact ih
  | @operation level => cases level <;> trivial
  | operand _ ih => exact ih
  | noPrefix _ ih => exact ih
  | call _ _ _ _ few _ => simpa [Expr.Limited, mostArguments] using few
  | primary _ ih => exact ih
  | _ => trivial

theorem Written.limited {tokens : List Token} {node : Expr Unit} (written : Written tokens node) :
    node.Limited := by
  rcases written with ⟨used, _, derived⟩ | rfl
  · exact derived.limited
  · trivial

theorem VariableDeclaration.limited {tokens : List Token} {stmt : Stmt Unit}
    (derived : VariableDeclaration tokens stmt) : ∀ inner ∈ stmt.statements, inner.Limited := by
  cases derived <;> exact List.forall_mem_singleton.2 trivial

theorem ExpressionStatement.limited {tokens : List Token} {stmt : Stmt Unit}
    (derived : ExpressionStatement tokens stmt) : ∀ inner ∈ stmt.statements, inner.Limited := by
  cases derived
  exact List.forall_mem_singleton.2 trivial

theorem Initializer.limited {tokens : List Token} {initializer : Option (Stmt Unit)}
    (derived : Initializer tokens initializer) :
    ∀ stmt ∈ initializer, ∀ inner ∈ stmt.statements, inner.Limited := by
  cases derived with
  | absent => exact nofun
  | declaration whole =>
      rintro _ ⟨⟩
      exact whole.limited
  | expression whole =>
      rintro _ ⟨⟩
      exact whole.limited

theorem limited_roundsTree {condition increment : Option (Expr Unit)} {body : Stmt Unit}
    (inside : ∀ inner ∈ body.statements, inner.Limited) :
    ∀ inner ∈ (roundsTree condition increment body).statements, inner.Limited := by
  cases condition <;> cases increment <;>
    simpa [roundsTree, Stmt.statements, Stmt.allStatements, Stmt.Limited, or_imp, forall_and]
      using inside

theorem limited_loopTree {initializer : Option (Stmt Unit)}
    {condition increment : Option (Expr Unit)} {body : Stmt Unit}
    (before : ∀ stmt ∈ initializer, ∀ inner ∈ stmt.statements, inner.Limited)
    (inside : ∀ inner ∈ body.statements, inner.Limited) :
    ∀ inner ∈ (loopTree initializer condition increment body).statements, inner.Limited := by
  have rounds : ∀ inner ∈ (roundsTree condition increment body).statements, inner.Limited :=
    limited_roundsTree inside
  cases initializer with
  | none => exact rounds
  | some stmt =>
      exact List.forall_mem_cons.2 ⟨trivial, List.forall_mem_append.2
        ⟨before stmt rfl, List.forall_mem_append.2 ⟨rounds, List.forall_mem_nil _⟩⟩⟩

/-- No function that stands in a statement of the grammar has too many parameters. -/
theorem Statement.limited {form : Form} {tokens : List Token} {stmt : Stmt Unit} {dangling : Bool}
    (derived : Statement form tokens stmt dangling) :
    ∀ inner ∈ stmt.statements, inner.Limited := by
  -- What holds of the statements in each row holds of those in all of them.
  have rows {rows : List (List Token × Stmt Unit × Bool)}
      (each : ∀ row ∈ rows, ∀ inner ∈ row.2.1.statements, inner.Limited) :
      ∀ inner ∈ Stmt.allStatements (rows.map fun row => row.2.1), inner.Limited := by
    intro inner member
    obtain ⟨stmt, listed, member⟩ := Stmt.mem_allStatements.1 member
    obtain ⟨row, among, rfl⟩ := List.mem_map.1 listed
    exact each row among inner member
  induction derived with
  | classDecl _ _ _ _ _ _ ih =>
      refine List.forall_mem_cons.2 ⟨fun method listed => ?_, fun inner member => ?_⟩
      · obtain ⟨row, among, rfl⟩ := List.mem_map.1 listed
        exact ih row among _ (Stmt.mem_statements_self _)
      · obtain ⟨method, listed, member⟩ := Stmt.mem_methodStatements.1 member
        obtain ⟨row, among, rfl⟩ := List.mem_map.1 listed
        exact ih row among _ (List.mem_cons_of_mem _ member)
  | funDecl _ _ ih => exact ih
  | varDecl whole => exact whole.limited
  | statement _ ih => exact ih
  | function _ _ _ _ few _ _ _ _ _ ih =>
      exact List.forall_mem_cons.2
        ⟨by simpa [Stmt.Limited, FunctionDecl.parameters, mostArguments] using few, rows ih⟩
  | expression whole => exact whole.limited
  | loop _ _ before _ _ _ _ _ ih => exact limited_loopTree before.limited ih
  | conditional _ _ _ _ _ ih => exact List.forall_mem_cons.2 ⟨trivial, ih⟩
  | alternative _ _ _ _ _ _ _ ih ih' =>
      exact List.forall_mem_cons.2 ⟨trivial, List.forall_mem_append.2 ⟨ih, ih'⟩⟩
  | print => exact List.forall_mem_singleton.2 trivial
  | returning => exact List.forall_mem_singleton.2 trivial
  | whileLoop _ _ _ _ _ ih => exact List.forall_mem_cons.2 ⟨trivial, ih⟩
  | block _ _ _ _ ih => exact List.forall_mem_cons.2 ⟨trivial, rows ih⟩

/-- The trees of a program have no call with too many arguments and no function with too
many parameters. -/
theorem ProgramTree.limited {tokens : List Token} {statements : List (Stmt Unit)}
    (tree : ProgramTree tokens statements) :
    (∀ node ∈ Stmt.allNodes statements, node.Limited) ∧
      ∀ inner ∈ Stmt.allStatements statements, inner.Limited := by
  refine ⟨fun node member => (tree.written member).limited, fun inner member => ?_⟩
  obtain ⟨rows, each, _, rfl⟩ := tree
  obtain ⟨stmt, listed, member⟩ := Stmt.mem_allStatements.1 member
  obtain ⟨row, among, rfl⟩ := List.mem_map.1 listed
  exact (each row among).limited inner member

/-- What is read without a fault is the tree of its tokens, in the trailing mode perhaps
with a semicolon behind them. -/
theorem exists_programTree {trailing : Bool} {tokens : List Token}
    (quiet : (Program.ofTokens trailing tokens).errors = []) :
    ∃ used, ProgramTree used (Program.ofTokens trailing tokens).statements ∧
      (used = beforeEnd tokens ∨ used = beforeEnd tokens ++ [⟨.symbol .semicolon, ";", 1⟩]) := by
  have read : declarations trailing (beforeEnd tokens) =
      ((Program.ofTokens trailing tokens).statements, []) := by
    refine Prod.ext rfl ?_
    simpa [Program.ofTokens_eq] using quiet
  cases trailing with
  | false => exact ⟨_, programTree_iff.2 read, .inl rfl⟩
  | true =>
      rcases declarations_of_trailing read with closed | needs
      · exact ⟨_, programTree_iff.2 closed, .inl rfl⟩
      · exact ⟨_, needs ⟨.symbol .semicolon, ";", 1⟩ rfl, .inr rfl⟩

end Grammar

/-! ## All trees that are read -/

/-- All nodes and statements of a program fit, whatever its errors are, and if it has none
they are limited. -/
structure Program.Fits (program : Program) : Prop where
  nodes : ∀ node ∈ Stmt.allNodes program.statements, node.Fits
  statements : ∀ inner ∈ Stmt.allStatements program.statements, inner.Fits
  calls : program.errors = [] → ∀ node ∈ Stmt.allNodes program.statements, node.Limited
  functions : program.errors = [] →
    ∀ inner ∈ Stmt.allStatements program.statements, inner.Limited

theorem Program.fits_ofTokens (trailing : Bool) (tokens : List Token) :
    (ofTokens trailing tokens).Fits := by
  have shaped : Stmt.AllShaped (fun _ => True) (ofTokens trailing tokens).statements :=
    shaped_ofTokens trailing fun _ _ => trivial
  refine ⟨fun node member => (Stmt.shaped_allNodes _ shaped node member).fits,
    fun inner member => (Stmt.shaped_allStatements _ shaped inner member).fits,
    fun quiet => ?_, fun quiet => ?_⟩
  · obtain ⟨_, tree, _⟩ := Grammar.exists_programTree quiet
    exact tree.limited.1
  · obtain ⟨_, tree, _⟩ := Grammar.exists_programTree quiet
    exact tree.limited.2

end Lox
