/-
# The walk of the analysis, part by part

The analysis walks through a program in one pass.  This module says at which
parts of a program the walk arrives and in which state (`Text.Visits`), and
what can be told about that state from the result of the whole walk.

A walk only ever adds: faults behind those that were found before, and
distances of references that stand in what is walked through.  So what was
recorded at one reference is what is known of it in the end, and if there are
no faults in the end, there were none at any moment before.

The open scopes are the same before and behind anything but a declaration.
While a statement is walked through, every name that an open scope declares is
initialized; only inside the initializer of a local variable there is one that
is not, the variable itself.
-/

import Mathlib.Tactic.ByContra
import Lox.Proofs.Nodes
import Lox.Proofs.Numbering
import Lox.Scope

namespace Lox

namespace Analysis

/-- The state in which the body of a function is walked through. -/
def enterFunction (analysis : Analysis) (kind : FunctionKind) (names : List Token) : Analysis :=
  ({ analysis with inFunction := some kind }.enter).parameters names

/-- The state in which the methods of a class are walked through. -/
def enterClass (analysis : Analysis) (name : Token) : Analysis :=
  (({ analysis with inClass := true }.declare name).define name).enter receiverScope

/-- The later state knows all faults of the earlier one, and the same distances
of all references but the given ones. -/
structure Adds (own : List (Reference × Token)) (earlier later : Analysis) : Prop where
  errors : earlier.errors <+: later.errors
  distances : ∀ reference, (∀ name, (reference, name) ∉ own) →
    later.distances[reference]? = earlier.distances[reference]?

namespace Adds

variable {own more : List (Reference × Token)} {first second third : Analysis}

theorem of_eq (errors : second.errors = first.errors)
    (distances : second.distances = first.distances) : Adds own first second :=
  ⟨errors ▸ List.prefix_refl _, fun _ _ => distances ▸ rfl⟩

theorem refl (analysis : Analysis) : Adds own analysis analysis :=
  of_eq rfl rfl

theorem mono (adds : Adds own first second) (subset : own ⊆ more) : Adds more first second :=
  ⟨adds.errors, fun reference absent =>
    adds.distances reference fun name member => absent name (subset member)⟩

theorem trans (before : Adds own first second) (behind : Adds own second third) :
    Adds own first third :=
  ⟨before.errors.trans behind.errors, fun reference absent =>
    (behind.distances reference absent).trans (before.distances reference absent)⟩

/-- One part after the other adds the references of both. -/
theorem append (before : Adds own first second) (behind : Adds more second third) :
    Adds (own ++ more) first third :=
  (before.mono (List.subset_append_left _ _)).trans (behind.mono (List.subset_append_right _ _))

theorem report (analysis : Analysis) (fault : ScopeFault) (place : Token) :
    Adds own analysis (analysis.report fault place) :=
  ⟨List.prefix_append _ _, fun _ _ => rfl⟩

theorem declare (analysis : Analysis) (name : Token) :
    Adds own analysis (analysis.declare name) := by
  unfold Analysis.declare
  split
  · exact .refl _
  · split
    · exact ⟨List.prefix_append _ _, fun _ _ => rfl⟩
    · exact .of_eq rfl rfl

theorem define (analysis : Analysis) (name : Token) : Adds own analysis (analysis.define name) := by
  unfold Analysis.define
  split <;> exact .of_eq rfl rfl

theorem parameters (analysis : Analysis) (names : List Token) :
    Adds own analysis (analysis.parameters names) := by
  induction names generalizing analysis with
  | nil => exact .refl _
  | cons name names ih => exact ((declare analysis name).trans (define _ name)).trans (ih _)

theorem record (analysis : Analysis) (reference : Reference) (name : Token) :
    Adds [(reference, name)] analysis (analysis.record reference name) := by
  unfold Analysis.record
  split
  · refine ⟨List.prefix_refl _, fun other absent => ?_⟩
    apply Std.TreeMap.getElem?_insert.trans
    apply if_neg
    intro same
    rw [Std.LawfulEqOrd.eq_of_compare same] at absent
    exact absent name (List.mem_singleton_self _)
  · exact .refl _

theorem returning (analysis : Analysis) (keyword : Token) :
    Adds own analysis (analysis.returning keyword) := by
  unfold Analysis.returning
  split
  · exact report ..
  · exact .refl _

theorem enterFunction (analysis : Analysis) (kind : FunctionKind) (names : List Token) :
    Adds own analysis (analysis.enterFunction kind names) := by
  have inside : Adds own (Analysis.enter { analysis with inFunction := some kind }) _ :=
    parameters _ names
  exact ⟨inside.errors, inside.distances⟩

theorem enterClass (analysis : Analysis) (name : Token) :
    Adds own analysis (analysis.enterClass name) := by
  have named : Adds own { analysis with inClass := true } _ :=
    (declare _ name).trans (define _ name)
  exact ⟨named.errors, named.distances⟩

/-- Where no fault is known later, none was known before. -/
theorem quiet (adds : Adds own first second) (later : second.errors = []) : first.errors = [] := by
  have prefixed := adds.errors
  rw [later] at prefixed
  exact List.prefix_nil.1 prefixed

end Adds

mutual

/-- Through an expression, a walk adds distances of its references. -/
theorem adds_expr (analysis : Analysis) (expr : Expr Reference) :
    Adds expr.references analysis (analysis.expr expr) := by
  match expr with
  | .literal _ => exact .refl _
  | .grouping inner => exact adds_expr analysis inner
  | .unary _ operand => exact adds_expr analysis operand
  | .binary left _ right => exact (adds_expr analysis left).append (adds_expr _ right)
  | .logical left _ right => exact (adds_expr analysis left).append (adds_expr _ right)
  | .variable reference name =>
      rw [Analysis.expr]
      split
      · exact (Adds.report ..).trans (.record ..)
      · exact .record ..
  | .assign reference name value => exact (adds_expr analysis value).append (.record ..)
  | .call callee _ arguments =>
      exact (adds_expr analysis callee).append (adds_exprs _ arguments)
  | .get object _ => exact adds_expr analysis object
  | .set object _ value =>
      exact ((adds_expr analysis value).append (adds_expr _ object)).mono fun _ member => by
        rw [Expr.references]
        exact (List.perm_append_comm.mem_iff).1 member
  | .this reference keyword =>
      rw [Analysis.expr]
      split
      · exact .record ..
      · exact .report ..

/-- Through a row of expressions, a walk adds distances of its references. -/
theorem adds_exprs (analysis : Analysis) (exprs : List (Expr Reference)) :
    Adds (Expr.allReferences exprs) analysis (analysis.exprs exprs) := by
  match exprs with
  | [] => exact .refl _
  | first :: rest => exact (adds_expr analysis first).append (adds_exprs _ rest)

end

mutual

/-- Through a statement, a walk adds distances of its references. -/
theorem adds_stmt (analysis : Analysis) (stmt : Stmt Reference) :
    Adds stmt.references analysis (analysis.stmt stmt) := by
  match stmt with
  | .expression value => exact adds_expr analysis value
  | .print value => exact adds_expr analysis value
  | .varDecl name none => exact (Adds.declare analysis name).trans (.define _ name)
  | .varDecl name (some initializer) =>
      exact ((Adds.declare analysis name).trans (adds_expr _ initializer)).trans (.define _ name)
  | .block body =>
      have inside := adds_stmts analysis.enter body
      exact ⟨inside.errors, inside.distances⟩
  | .conditional condition onTrue none =>
      exact (adds_expr analysis condition).append (adds_stmt _ onTrue)
  | .conditional condition onTrue (some onFalse) =>
      exact ((adds_expr analysis condition).append (adds_stmt _ onTrue)).append
        (adds_stmt _ onFalse)
  | .whileLoop condition body =>
      exact (adds_expr analysis condition).append (adds_stmt _ body)
  | .funDecl declaration =>
      exact ((Adds.declare analysis declaration.name).trans (.define _ declaration.name)).trans
        (adds_function _ .function declaration)
  | .returning keyword none => exact Adds.returning analysis keyword
  | .returning keyword (some value) =>
      exact (Adds.returning analysis keyword).trans (adds_expr _ value)
  | .classDecl name members =>
      have inside := (Adds.enterClass analysis name).trans
        (adds_methods (analysis.enterClass name) members)
      exact ⟨inside.errors, inside.distances⟩

/-- Through a function, a walk adds distances of its references. -/
theorem adds_function (analysis : Analysis) (kind : FunctionKind)
    (declaration : FunctionDecl Reference) :
    Adds (Stmt.functionReferences declaration) analysis (analysis.function kind declaration) := by
  match declaration with
  | .mk _ names body =>
      have inside := (Adds.enterFunction analysis kind names).trans
        (adds_stmts (analysis.enterFunction kind names) body)
      exact ⟨inside.errors, inside.distances⟩

/-- Through methods, a walk adds distances of their references. -/
theorem adds_methods (analysis : Analysis) (methods : List (FunctionDecl Reference)) :
    Adds (Stmt.methodReferences methods) analysis (analysis.methods methods) := by
  match methods with
  | [] => exact .refl _
  | first :: rest => exact (adds_function analysis .method first).append (adds_methods _ rest)

/-- Through a row of statements, a walk adds distances of its references. -/
theorem adds_stmts (analysis : Analysis) (stmts : List (Stmt Reference)) :
    Adds (Stmt.allReferences stmts) analysis (analysis.stmts stmts) := by
  match stmts with
  | [] => exact .refl _
  | first :: rest => exact (adds_stmt analysis first).append (adds_stmts _ rest)

end

/-! ## The open scopes -/

/-- The scopes after a name has been declared in the innermost one. -/
def declared (name : String) : List Scope → List Scope
  | [] => []
  | scope :: outer => scope.insert name false :: outer

/-- The scopes after a name of the innermost one has been initialized. -/
def defined (name : String) : List Scope → List Scope
  | [] => []
  | scope :: outer => scope.insert name true :: outer

theorem scopes_declare (analysis : Analysis) (name : Token) :
    (analysis.declare name).scopes = declared name.lexeme analysis.scopes := by
  unfold declare
  split
  · next none => rw [none, declared]
  · next scope outer some =>
      rw [some, declared]
      split <;> rfl

theorem scopes_define (analysis : Analysis) (name : Token) :
    (analysis.define name).scopes = defined name.lexeme analysis.scopes := by
  unfold define
  split
  · next none => rw [none, defined]
  · next some => rw [some, defined]

theorem scopes_record (analysis : Analysis) (reference : Reference) (name : Token) :
    (analysis.record reference name).scopes = analysis.scopes := by
  unfold record
  split <;> rfl

theorem scopes_returning (analysis : Analysis) (keyword : Token) :
    (analysis.returning keyword).scopes = analysis.scopes := by
  unfold returning
  split <;> rfl

@[simp]
theorem tail_declared (name : String) (scopes : List Scope) :
    (declared name scopes).tail = scopes.tail := by
  cases scopes <;> rfl

@[simp]
theorem tail_defined (name : String) (scopes : List Scope) :
    (defined name scopes).tail = scopes.tail := by
  cases scopes <;> rfl

theorem tail_parameters (analysis : Analysis) (names : List Token) :
    (analysis.parameters names).scopes.tail = analysis.scopes.tail := by
  induction names generalizing analysis with
  | nil => rfl
  | cons name names ih =>
      apply (ih ((analysis.declare name).define name)).trans
      rw [scopes_define, scopes_declare, tail_defined, tail_declared]

mutual

/-- An expression leaves the scopes as they are. -/
theorem scopes_expr (analysis : Analysis) (expr : Expr Reference) :
    (analysis.expr expr).scopes = analysis.scopes := by
  match expr with
  | .literal _ => rfl
  | .grouping inner => exact scopes_expr analysis inner
  | .unary _ operand => exact scopes_expr analysis operand
  | .binary left _ right => exact (scopes_expr _ right).trans (scopes_expr analysis left)
  | .logical left _ right => exact (scopes_expr _ right).trans (scopes_expr analysis left)
  | .variable reference name =>
      rw [Analysis.expr]
      split <;> exact scopes_record ..
  | .assign reference name value =>
      exact (scopes_record ..).trans (scopes_expr analysis value)
  | .call callee _ arguments =>
      exact (scopes_exprs _ arguments).trans (scopes_expr analysis callee)
  | .get object _ => exact scopes_expr analysis object
  | .set object _ value => exact (scopes_expr _ object).trans (scopes_expr analysis value)
  | .this reference keyword =>
      rw [Analysis.expr]
      split
      · exact scopes_record ..
      · rfl

/-- A row of expressions leaves the scopes as they are. -/
theorem scopes_exprs (analysis : Analysis) (exprs : List (Expr Reference)) :
    (analysis.exprs exprs).scopes = analysis.scopes := by
  match exprs with
  | [] => rfl
  | first :: rest => exact (scopes_exprs _ rest).trans (scopes_expr analysis first)

end

mutual

/-- A statement changes no scope but the innermost one. -/
theorem tail_stmt (analysis : Analysis) (stmt : Stmt Reference) :
    (analysis.stmt stmt).scopes.tail = analysis.scopes.tail := by
  match stmt with
  | .expression value => exact congrArg List.tail (scopes_expr analysis value)
  | .print value => exact congrArg List.tail (scopes_expr analysis value)
  | .varDecl name none =>
      rw [Analysis.stmt, scopes_define, scopes_declare, tail_defined, tail_declared]
  | .varDecl name (some initializer) =>
      rw [Analysis.stmt, scopes_define, scopes_expr, scopes_declare, tail_defined, tail_declared]
  | .block body =>
      have inside : (analysis.enter.stmts body).scopes.tail = analysis.scopes :=
        tail_stmts analysis.enter body
      exact congrArg List.tail inside
  | .conditional condition onTrue none =>
      rw [Analysis.stmt, tail_stmt _ onTrue, scopes_expr]
  | .conditional condition onTrue (some onFalse) =>
      rw [Analysis.stmt, tail_stmt _ onFalse, tail_stmt _ onTrue, scopes_expr]
  | .whileLoop condition body => rw [Analysis.stmt, tail_stmt _ body, scopes_expr]
  | .funDecl declaration =>
      rw [Analysis.stmt, scopes_function, scopes_define, scopes_declare, tail_defined,
        tail_declared]
  | .returning keyword none => rw [Analysis.stmt, scopes_returning]
  | .returning keyword (some value) => rw [Analysis.stmt, scopes_expr, scopes_returning]
  | .classDecl name members =>
      have inside := scopes_methods (analysis.enterClass name) members
      have same : (analysis.stmt (.classDecl name members)).scopes =
          ((analysis.enterClass name).methods members).scopes.tail := rfl
      rw [same, inside]
      show ((Analysis.declare _ name).define name).scopes.tail = _
      rw [scopes_define, scopes_declare, tail_defined, tail_declared]

/-- A function leaves the scopes as they are. -/
theorem scopes_function (analysis : Analysis) (kind : FunctionKind)
    (declaration : FunctionDecl Reference) :
    (analysis.function kind declaration).scopes = analysis.scopes := by
  match declaration with
  | .mk _ names body =>
      have inside := tail_stmts (analysis.enterFunction kind names) body
      exact inside.trans (tail_parameters _ names)

/-- Methods leave the scopes as they are. -/
theorem scopes_methods (analysis : Analysis) (methods : List (FunctionDecl Reference)) :
    (analysis.methods methods).scopes = analysis.scopes := by
  match methods with
  | [] => rfl
  | first :: rest =>
      exact (scopes_methods _ rest).trans (scopes_function analysis .method first)

/-- A row of statements changes no scope but the innermost one. -/
theorem tail_stmts (analysis : Analysis) (stmts : List (Stmt Reference)) :
    (analysis.stmts stmts).scopes.tail = analysis.scopes.tail := by
  match stmts with
  | [] => rfl
  | first :: rest => exact (tail_stmts _ rest).trans (tail_stmt analysis first)

end

/-- The scopes behind a statement whose branches declare nothing. -/
def scopesBehind (scopes : List Scope) : Stmt Reference → List Scope
  | .varDecl name _ => defined name.lexeme (declared name.lexeme scopes)
  | .funDecl declaration =>
    defined declaration.name.lexeme (declared declaration.name.lexeme scopes)
  | .classDecl name _ => defined name.lexeme (declared name.lexeme scopes)
  | _ => scopes

theorem scopesBehind_of_not_declaration {stmt : Stmt Reference} (scopes : List Scope)
    (noDeclaration : stmt.isDeclaration = false) : scopesBehind scopes stmt = scopes := by
  cases stmt <;> first | rfl | cases noDeclaration

/-- Behind a shaped statement the scopes are those in front of it, with the name
that it declares. -/
theorem scopes_stmt {allowed : Token → Prop} (analysis : Analysis) {stmt : Stmt Reference}
    (shaped : stmt.Shaped allowed) :
    (analysis.stmt stmt).scopes = scopesBehind analysis.scopes stmt := by
  match stmt, shaped with
  | .expression value, _ => exact scopes_expr analysis value
  | .print value, _ => exact scopes_expr analysis value
  | .varDecl name none, _ => rw [Analysis.stmt, scopes_define, scopes_declare, scopesBehind]
  | .varDecl name (some initializer), _ =>
      rw [Analysis.stmt, scopes_define, scopes_expr, scopes_declare, scopesBehind]
  | .block body, _ =>
      have inside : (analysis.enter.stmts body).scopes.tail = analysis.scopes :=
        tail_stmts analysis.enter body
      exact inside
  | .conditional condition onTrue none, shaped =>
      rw [Analysis.stmt, scopes_stmt _ shaped.2.1, scopesBehind_of_not_declaration _ shaped.2.2,
        scopes_expr]
      rfl
  | .conditional condition onTrue (some onFalse), shaped =>
      rw [Analysis.stmt, scopes_stmt _ shaped.2.2.1,
        scopesBehind_of_not_declaration _ shaped.2.2.2, scopes_stmt _ shaped.2.1.1,
        scopesBehind_of_not_declaration _ shaped.2.1.2, scopes_expr]
      rfl
  | .whileLoop condition body, shaped =>
      rw [Analysis.stmt, scopes_stmt _ shaped.2.1, scopesBehind_of_not_declaration _ shaped.2.2,
        scopes_expr]
      rfl
  | .funDecl declaration, _ =>
      rw [Analysis.stmt, scopes_function, scopes_define, scopes_declare, scopesBehind]
  | .returning keyword none, _ => exact scopes_returning analysis keyword
  | .returning keyword (some value), _ =>
      rw [Analysis.stmt, scopes_expr, scopes_returning]
      rfl
  | .classDecl name members, _ =>
      have inside := scopes_methods (analysis.enterClass name) members
      have same : (analysis.stmt (.classDecl name members)).scopes =
          ((analysis.enterClass name).methods members).scopes.tail := rfl
      rw [same, inside]
      show ((Analysis.declare _ name).define name).scopes = _
      rw [scopes_define, scopes_declare, scopesBehind]

end Analysis

end Lox
