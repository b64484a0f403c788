/-
# What the analysis finds does not depend on numbers

The analysis of scopes looks at the references of a program only to record their
distances, and it never looks at the distances that it recorded.  So whether a
text is rejected, and with which errors, does not depend on how its references
are numbered nor on what else has been analysed before
(`Session.errors_eq`).  The lines of its tokens only show in the errors.
-/

import Lox.Proofs.Lines
import Lox.Proofs.Session

namespace Lox

namespace Analysis

/-- Two walks that are at the same point of one program, of which the second walk
sees the tokens on other lines. -/
structure Alike (f : Nat → Nat) (analysis image : Analysis) : Prop where
  scopes : image.scopes = analysis.scopes
  inFunction : image.inFunction = analysis.inFunction
  inClass : image.inClass = analysis.inClass
  errors : image.errors = analysis.errors.map (StaticError.relined f)

namespace Alike

variable {f : Nat → Nat} {analysis image : Analysis}

theorem report (alike : analysis.Alike f image) (fault : ScopeFault) (place : Token) :
    (analysis.report fault place).Alike f (image.report fault (place.relined f)) := by
  refine ⟨alike.scopes, alike.inFunction, alike.inClass, ?_⟩
  rw [Analysis.report, Analysis.report, alike.errors, List.map_append]
  rfl

theorem withScopes (alike : analysis.Alike f image) (scopes : List Scope) :
    Alike f { analysis with scopes := scopes } { image with scopes := scopes } :=
  ⟨rfl, alike.inFunction, alike.inClass, alike.errors⟩

theorem enter (alike : analysis.Alike f image) (scope : Scope) :
    (analysis.enter scope).Alike f (image.enter scope) := by
  rw [Analysis.enter, Analysis.enter, alike.scopes]
  exact alike.withScopes _

theorem leave (alike : analysis.Alike f image) : analysis.leave.Alike f image.leave := by
  rw [Analysis.leave, Analysis.leave, alike.scopes]
  exact alike.withScopes _

theorem declare (alike : analysis.Alike f image) (name : Token) :
    (analysis.declare name).Alike f (image.declare (name.relined f)) := by
  unfold Analysis.declare
  rw [alike.scopes]
  cases analysis.scopes with
  | nil => exact alike
  | cons scope outer =>
      have declared := alike.withScopes (scope.insert name.lexeme false :: outer)
      have same : (name.relined f).lexeme = name.lexeme := rfl
      dsimp only
      rw [same]
      by_cases again : scope.contains name.lexeme = true
      · rw [if_pos again, if_pos again]
        exact declared.report .alreadyDeclared name
      · rw [if_neg again, if_neg again]
        exact declared

theorem define (alike : analysis.Alike f image) (name : Token) :
    (analysis.define name).Alike f (image.define (name.relined f)) := by
  unfold Analysis.define
  rw [alike.scopes]
  cases analysis.scopes with
  | nil => exact alike
  | cons scope outer => exact alike.withScopes _

theorem parameters (alike : analysis.Alike f image) (names : List Token) :
    (analysis.parameters names).Alike f (image.parameters (names.map (Token.relined f))) := by
  induction names generalizing analysis image with
  | nil => exact alike
  | cons name names ih => exact ih ((alike.declare name).define name)

/-- What is recorded changes nothing else. -/
theorem record (alike : analysis.Alike f image) (reference reference' : Reference)
    (name name' : Token) :
    (analysis.record reference name).Alike f (image.record reference' name') := by
  obtain ⟨scopes, inFunction, inClass, errors⟩ := alike
  constructor <;> (unfold Analysis.record; split <;> split <;> assumption)

theorem returning (alike : analysis.Alike f image) (keyword : Token) :
    (analysis.returning keyword).Alike f (image.returning (keyword.relined f)) := by
  unfold Analysis.returning
  rw [alike.inFunction]
  by_cases outside : analysis.inFunction.isNone = true
  · rw [if_pos outside, if_pos outside]
    exact alike.report .returnOutsideFunction keyword
  · rw [if_neg outside, if_neg outside]
    exact alike

theorem useVariable (alike : analysis.Alike f image) (reference reference' : Reference)
    (name : Token) :
    (analysis.expr (.variable reference name)).Alike f
      (image.expr (.variable reference' (name.relined f))) := by
  have same : image.isUninitialized (name.relined f).lexeme =
      analysis.isUninitialized name.lexeme := by
    rw [Analysis.isUninitialized, Analysis.isUninitialized, alike.scopes]
    rfl
  rw [Analysis.expr, Analysis.expr, same]
  apply record
  by_cases own : analysis.isUninitialized name.lexeme = true
  · rw [if_pos own, if_pos own]
    exact alike.report .readInOwnInitializer name
  · rw [if_neg own, if_neg own]
    exact alike

theorem useThis (alike : analysis.Alike f image) (reference reference' : Reference)
    (keyword : Token) :
    (analysis.expr (.this reference keyword)).Alike f
      (image.expr (.this reference' (keyword.relined f))) := by
  rw [Analysis.expr, Analysis.expr, alike.inClass]
  by_cases among : analysis.inClass = true
  · rw [if_pos among, if_pos among]
    exact alike.record _ _ _ _
  · rw [if_neg among, if_neg among]
    exact alike.report .thisOutsideClass keyword

theorem inside (alike : analysis.Alike f image) (inFunction : Option FunctionKind) :
    Alike f { analysis with inFunction := inFunction } { image with inFunction := inFunction } :=
  ⟨alike.scopes, rfl, alike.inClass, alike.errors⟩

theorem among (alike : analysis.Alike f image) (inClass : Bool) :
    Alike f { analysis with inClass := inClass } { image with inClass := inClass } :=
  ⟨alike.scopes, alike.inFunction, rfl, alike.errors⟩

mutual

/-- Two walks stay alike through an expression, however it is labelled. -/
theorem expr {analysis image : Analysis}
    (alike : analysis.Alike f image) (expr : Expr Reference) (next : Reference) :
    (analysis.expr expr).Alike f (image.expr ((expr.unlabelled.relined f).numbered next).1) := by
  match expr with
  | .literal value => exact alike
  | .grouping inner => exact Alike.expr alike inner next
  | .unary operator operand => exact Alike.expr alike operand next
  | .binary left operator right => exact Alike.expr (Alike.expr alike left next) right _
  | .logical left operator right => exact Alike.expr (Alike.expr alike left next) right _
  | .variable _ name => exact alike.useVariable _ _ name
  | .assign _ name value => exact (Alike.expr alike value next).record _ _ _ _
  | .call callee paren arguments => exact Alike.exprs (Alike.expr alike callee next) arguments _
  | .get object name => exact Alike.expr alike object next
  | .set object name value =>
      exact Alike.expr (Alike.expr alike value ((object.unlabelled.relined f).numbered next).2)
        object next
  | .this _ keyword => exact alike.useThis _ _ keyword

theorem exprs {analysis image : Analysis}
    (alike : analysis.Alike f image) (exprs : List (Expr Reference)) (next : Reference) :
    (analysis.exprs exprs).Alike f
      (image.exprs (Expr.allNumbered (Expr.allRelined f (Expr.allUnlabelled exprs)) next).1) := by
  match exprs with
  | [] => exact alike
  | expr :: rest => exact Alike.exprs (Alike.expr alike expr next) rest _

end

mutual

/-- Two walks stay alike through a statement, however it is labelled. -/
theorem stmt {analysis image : Analysis}
    (alike : analysis.Alike f image) (stmt : Stmt Reference) (next : Reference) :
    (analysis.stmt stmt).Alike f (image.stmt ((stmt.unlabelled.relined f).numbered next).1) := by
  match stmt with
  | .expression expr => exact alike.expr expr next
  | .print expr => exact alike.expr expr next
  | .varDecl name none => exact (alike.declare name).define name
  | .varDecl name (some initializer) =>
      exact ((alike.declare name).expr initializer next).define name
  | .block body => exact (Alike.stmts (alike.enter {}) body next).leave
  | .conditional condition onTrue none =>
      exact Alike.stmt (alike.expr condition next) onTrue _
  | .conditional condition onTrue (some onFalse) =>
      exact Alike.stmt (Alike.stmt (alike.expr condition next) onTrue _) onFalse _
  | .whileLoop condition body => exact Alike.stmt (alike.expr condition next) body _
  | .funDecl (.mk name parameters body) =>
      exact Alike.function ((alike.declare name).define name) .function
        (.mk name parameters body) next
  | .returning keyword none => exact alike.returning keyword
  | .returning keyword (some expr) => exact (alike.returning keyword).expr expr next
  | .classDecl name methods =>
      have entered := (((alike.among true).declare name).define name).enter receiverScope
      have left := (Alike.methods entered methods next).leave
      exact ⟨left.scopes, left.inFunction, alike.inClass, left.errors⟩

theorem function {analysis image : Analysis}
    (alike : analysis.Alike f image) (kind : FunctionKind)
    (declaration : FunctionDecl Reference) (next : Reference) :
    (analysis.function kind declaration).Alike f
      (image.function kind (Stmt.functionNumbered
        (Stmt.functionRelined f (Stmt.functionUnlabelled declaration)) next).1) := by
  match declaration with
  | .mk name parameters body =>
      have entered := ((alike.inside (some kind)).enter {}).parameters parameters
      have left := (Alike.stmts entered body next).leave
      exact ⟨left.scopes, alike.inFunction, left.inClass, left.errors⟩

theorem methods {analysis image : Analysis}
    (alike : analysis.Alike f image) (methods : List (FunctionDecl Reference))
    (next : Reference) :
    (analysis.methods methods).Alike f
      (image.methods (Stmt.methodsNumbered
        (Stmt.methodsRelined f (Stmt.methodsUnlabelled methods)) next).1) := by
  match methods with
  | [] => exact alike
  | method :: rest => exact Alike.methods (Alike.function alike .method method next) rest _

theorem stmts {analysis image : Analysis}
    (alike : analysis.Alike f image) (stmts : List (Stmt Reference)) (next : Reference) :
    (analysis.stmts stmts).Alike f
      (image.stmts (Stmt.allNumbered (Stmt.allRelined f (Stmt.allUnlabelled stmts)) next).1) := by
  match stmts with
  | [] => exact alike
  | stmt :: rest => exact Alike.stmts (Alike.stmt alike stmt next) rest _

end

end Alike

/-- The errors of a program are those of the program that is numbered from zero, on other
lines. -/
theorem errors_numbered (known known' : Distances) (program : List (Stmt Reference))
    (f : Nat → Nat) :
    (Analysis.stmts { distances := known' }
        (Stmt.allNumbered (Stmt.allRelined f (Stmt.allUnlabelled program)) 0).1).errors =
      (Analysis.stmts { distances := known } program).errors.map (StaticError.relined f) := by
  have start : Alike f { distances := known } { distances := known' } := ⟨rfl, rfl, rfl, rfl⟩
  exact (start.stmts program 0).errors

/-- The errors of a program whose tokens stand on other lines are those of the
program, on these lines; the labels of the references and the distances that were
known before do not matter. -/
theorem errors_stmts (known known' : Distances) {program image : List (Stmt Reference)}
    {f : Nat → Nat}
    (same : Stmt.allUnlabelled image = Stmt.allRelined f (Stmt.allUnlabelled program)) :
    (Analysis.stmts { distances := known' } image).errors =
      (Analysis.stmts { distances := known } program).errors.map (StaticError.relined f) := by
  have onImage := errors_numbered known' {} image id
  have onProgram := errors_numbered known {} program f
  rw [Stmt.allRelined_id, same, List.map_congr_left fun error _ => error.relined_id,
    List.map_id'] at onImage
  exact onImage.symm.trans onProgram

/-- Programs that are the same without labels have the same errors. -/
theorem errors_unlabelled (known known' : Distances) {program image : List (Stmt Reference)}
    (same : Stmt.allUnlabelled image = Stmt.allUnlabelled program) :
    (Analysis.stmts { distances := known' } image).errors =
      (Analysis.stmts { distances := known } program).errors := by
  rw [← Stmt.allRelined_id (Stmt.allUnlabelled program)] at same
  rw [errors_stmts known known' same, List.map_congr_left fun error _ => error.relined_id,
    List.map_id']

end Analysis

/-- Every session finds the same errors in a text. -/
theorem Session.errors_eq (session other : Session) (entry : Entry) (source : String) :
    other.errors entry source = session.errors entry source := by
  rw [Session.errors, Session.errors]
  split
  · have same := (other.unlabelled_program entry source).trans
      (session.unlabelled_program entry source).symm
    exact Analysis.errors_unlabelled session.distances other.distances same
  · rfl

end Lox
