/-
# The context of the analysis

Whatever is walked through, faulty or not, as many scopes are open behind it as in
front of it, and the analysis is in the same function and in the same class as
before (`Analysis.InContext`).  So every text of a program at the top level is
analysed as if the program began with it, apart from what was found before.
-/

import Lox.Proofs.Walk

namespace Lox

namespace Analysis

/-- The later point of a walk is in the context of the earlier one. -/
structure InContext (earlier later : Analysis) : Prop where
  height : later.scopes.length = earlier.scopes.length
  inFunction : later.inFunction = earlier.inFunction
  inClass : later.inClass = earlier.inClass

namespace InContext

variable {first second third : Analysis}

theorem refl (analysis : Analysis) : InContext analysis analysis :=
  ⟨rfl, rfl, rfl⟩

theorem trans (before : InContext first second) (behind : InContext second third) :
    InContext first third :=
  ⟨behind.height.trans before.height, behind.inFunction.trans before.inFunction,
    behind.inClass.trans before.inClass⟩

theorem report (analysis : Analysis) (fault : ScopeFault) (place : Token) :
    InContext analysis (analysis.report fault place) :=
  ⟨rfl, rfl, rfl⟩

theorem declare (analysis : Analysis) (name : Token) :
    InContext analysis (analysis.declare name) := by
  unfold Analysis.declare
  split
  · exact .refl analysis
  · next scope outer same =>
      split
      · exact ⟨by rw [same]; rfl, rfl, rfl⟩
      · exact ⟨by rw [same]; rfl, rfl, rfl⟩

theorem define (analysis : Analysis) (name : Token) :
    InContext analysis (analysis.define name) := by
  unfold Analysis.define
  split
  · exact .refl analysis
  · next scope outer same => exact ⟨by rw [same]; rfl, rfl, rfl⟩

theorem parameters (analysis : Analysis) (names : List Token) :
    InContext analysis (analysis.parameters names) := by
  induction names generalizing analysis with
  | nil => exact .refl analysis
  | cons name names ih => exact ((declare analysis name).trans (define _ name)).trans (ih _)

theorem record (analysis : Analysis) (reference : Reference) (name : Token) :
    InContext analysis (analysis.record reference name) := by
  unfold Analysis.record
  split
  · exact ⟨rfl, rfl, rfl⟩
  · exact .refl analysis

theorem returning (analysis : Analysis) (keyword : Token) :
    InContext analysis (analysis.returning keyword) := by
  unfold Analysis.returning
  split
  · exact report analysis _ keyword
  · exact .refl analysis

/-- A scope that was opened is closed again. -/
theorem leave {scope : Scope} (inside : InContext (first.enter scope) second) :
    InContext first second.leave := by
  refine ⟨?_, inside.inFunction, inside.inClass⟩
  rw [Analysis.leave, List.length_tail, inside.height, Analysis.enter, List.length_cons,
    Nat.add_sub_cancel]

mutual

/-- An expression is left in the context in which it is entered. -/
theorem expr (analysis : Analysis) (expr : Expr Reference) :
    InContext analysis (analysis.expr expr) := by
  match expr with
  | .literal _ => exact .refl analysis
  | .grouping inner => exact InContext.expr analysis inner
  | .unary _ operand => exact InContext.expr analysis operand
  | .binary left _ right => exact (InContext.expr analysis left).trans (InContext.expr _ right)
  | .logical left _ right => exact (InContext.expr analysis left).trans (InContext.expr _ right)
  | .variable reference name =>
      rw [Analysis.expr]
      split
      · exact (report analysis _ name).trans (record _ reference name)
      · exact record analysis reference name
  | .assign reference name value =>
      exact (InContext.expr analysis value).trans (record _ reference name)
  | .call callee _ arguments =>
      exact (InContext.expr analysis callee).trans (InContext.exprs _ arguments)
  | .get object _ => exact InContext.expr analysis object
  | .set object _ value => exact (InContext.expr analysis value).trans (InContext.expr _ object)
  | .this reference keyword =>
      rw [Analysis.expr]
      split
      · exact record analysis reference keyword
      · exact report analysis _ keyword

theorem exprs (analysis : Analysis) (exprs : List (Expr Reference)) :
    InContext analysis (analysis.exprs exprs) := by
  match exprs with
  | [] => exact .refl analysis
  | expr :: rest => exact (InContext.expr analysis expr).trans (InContext.exprs _ rest)

end

mutual

/-- A statement is left in the context in which it is entered. -/
theorem stmt (analysis : Analysis) (stmt : Stmt Reference) :
    InContext analysis (analysis.stmt stmt) := by
  match stmt with
  | .expression value => exact expr analysis value
  | .print value => exact expr analysis value
  | .varDecl name none => exact (declare analysis name).trans (define _ name)
  | .varDecl name (some initializer) =>
      exact ((declare analysis name).trans (expr _ initializer)).trans (define _ name)
  | .block body => exact (InContext.stmts analysis.enter body).leave
  | .conditional condition onTrue none =>
      exact (expr analysis condition).trans (InContext.stmt _ onTrue)
  | .conditional condition onTrue (some onFalse) =>
      exact ((expr analysis condition).trans (InContext.stmt _ onTrue)).trans
        (InContext.stmt _ onFalse)
  | .whileLoop condition body => exact (expr analysis condition).trans (InContext.stmt _ body)
  | .funDecl declaration =>
      exact ((declare analysis _).trans (define _ _)).trans
        (InContext.function _ .function declaration)
  | .returning keyword none => exact returning analysis keyword
  | .returning keyword (some value) => exact (returning analysis keyword).trans (expr _ value)
  | .classDecl name members =>
      let inside := { analysis with inClass := true }
      have named : InContext inside _ := (declare inside name).trans (define _ name)
      let entered := ((inside.declare name).define name).enter receiverScope
      have left := named.trans (InContext.methods entered members).leave
      exact ⟨left.height, left.inFunction, rfl⟩

/-- A function is left in the context in which it is entered. -/
theorem function (analysis : Analysis) (kind : FunctionKind)
    (declaration : FunctionDecl Reference) :
    InContext analysis (analysis.function kind declaration) := by
  match declaration with
  | .mk _ names body =>
      let inside := { analysis with inFunction := some kind }
      have left := ((parameters inside.enter names).trans (InContext.stmts _ body)).leave
      exact ⟨left.height, rfl, left.inClass⟩

theorem methods (analysis : Analysis) (methods : List (FunctionDecl Reference)) :
    InContext analysis (analysis.methods methods) := by
  match methods with
  | [] => exact .refl analysis
  | method :: rest =>
      exact (InContext.function analysis .method method).trans (InContext.methods _ rest)

theorem stmts (analysis : Analysis) (stmts : List (Stmt Reference)) :
    InContext analysis (analysis.stmts stmts) := by
  match stmts with
  | [] => exact .refl analysis
  | stmt :: rest => exact (InContext.stmt analysis stmt).trans (InContext.stmts _ rest)

end

end InContext

/-- One row of statements behind another one. -/
theorem stmts_append (analysis : Analysis) (program more : List (Stmt Reference)) :
    analysis.stmts (program ++ more) = (analysis.stmts program).stmts more := by
  induction program generalizing analysis with
  | nil => rfl
  | cons stmt program ih => exact ih (analysis.stmt stmt)

end Analysis

end Lox
