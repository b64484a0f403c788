/-
# Labels drawn from a supply

Numbers are drawn one after the other and none of them is drawn again.  The labels of
what has come of that are therefore among the numbers drawn, each of them at most once
(`Draws`); some numbers may be on nothing in the end.  This module also says what a
tree is without its labels, and that its shape does not depend on them.
-/

import Mathlib.Data.List.Perm.Subperm
import Lox.Proofs.Shape

namespace Lox

variable {ρ : Type}

namespace Expr

mutual

/-- The same expression without labels. -/
def unlabelled : Expr ρ → Expr Unit
  | literal value => .literal value
  | grouping inner => .grouping inner.unlabelled
  | unary operator operand => .unary operator operand.unlabelled
  | binary left operator right => .binary left.unlabelled operator right.unlabelled
  | logical left operator right => .logical left.unlabelled operator right.unlabelled
  | .variable _ name => .variable () name
  | assign _ name value => .assign () name value.unlabelled
  | call callee paren arguments => .call callee.unlabelled paren (allUnlabelled arguments)
  | get object name => .get object.unlabelled name
  | set object name value => .set object.unlabelled name value.unlabelled
  | this _ keyword => .this () keyword

/-- The same expressions without labels. -/
def allUnlabelled : List (Expr ρ) → List (Expr Unit)
  | [] => []
  | expr :: rest => expr.unlabelled :: allUnlabelled rest

end

/-- The labels of an expression in walk order. -/
def labels (expr : Expr ρ) : List ρ :=
  expr.references.map Prod.fst

end Expr

namespace Stmt

mutual

/-- The same statement without labels. -/
def unlabelled : Stmt ρ → Stmt Unit
  | expression expr => .expression expr.unlabelled
  | print expr => .print expr.unlabelled
  | varDecl name none => .varDecl name none
  | varDecl name (some expr) => .varDecl name (some expr.unlabelled)
  | block body => .block (allUnlabelled body)
  | conditional condition onTrue none =>
    .conditional condition.unlabelled onTrue.unlabelled none
  | conditional condition onTrue (some onFalse) =>
    .conditional condition.unlabelled onTrue.unlabelled (some onFalse.unlabelled)
  | whileLoop condition body => .whileLoop condition.unlabelled body.unlabelled
  | funDecl declaration => .funDecl (functionUnlabelled declaration)
  | returning keyword none => .returning keyword none
  | returning keyword (some expr) => .returning keyword (some expr.unlabelled)
  | classDecl name methods => .classDecl name (methodsUnlabelled methods)

/-- The same function without labels. -/
def functionUnlabelled : FunctionDecl ρ → FunctionDecl Unit
  | .mk name parameters body => .mk name parameters (allUnlabelled body)

/-- The same methods without labels. -/
def methodsUnlabelled : List (FunctionDecl ρ) → List (FunctionDecl Unit)
  | [] => []
  | method :: rest => functionUnlabelled method :: methodsUnlabelled rest

/-- The same statements without labels. -/
def allUnlabelled : List (Stmt ρ) → List (Stmt Unit)
  | [] => []
  | stmt :: rest => stmt.unlabelled :: allUnlabelled rest

end

end Stmt

/-! ## Numbers that are drawn -/

/-- From one number up to another numbers were drawn, and these labels are among those that
were there before and those numbers, each of them at most once. -/
structure Draws (given : List Nat) (next last : Nat) (labels : List Nat) : Prop where
  ordered : next ≤ last
  among : labels.Subperm (given ++ List.range' next (last - next))

namespace Draws

variable {given labels more : List Nat} {next middle last : Nat}

/-- Nothing is drawn. -/
theorem none (given : List Nat) (next : Nat) : Draws given next next given := by
  refine ⟨Nat.le_refl next, ?_⟩
  rw [Nat.sub_self, List.range'_zero, List.append_nil]

/-- One number is drawn. -/
theorem one (given : List Nat) (next : Nat) :
    Draws given next (next + 1) (given ++ [next]) := by
  refine ⟨Nat.le_succ next, ?_⟩
  rw [Nat.add_sub_cancel_left]
  exact .refl _

/-- Labels may be dropped, and come in another order. -/
theorem mono (draws : Draws given next last labels) (fewer : more.Subperm labels) :
    Draws given next last more :=
  ⟨draws.ordered, fewer.trans draws.among⟩

/-- Other labels that were there before do not matter. -/
theorem beside (draws : Draws given next last labels) (others : List Nat) :
    Draws (others ++ given) next last (others ++ labels) := by
  refine ⟨draws.ordered, ?_⟩
  rw [List.append_assoc]
  exact (List.subperm_append_left others).2 draws.among

/-- What is drawn one after the other. -/
theorem trans (before : Draws given next middle labels) (behind : Draws labels middle last more) :
    Draws given next last more := by
  refine ⟨Nat.le_trans before.ordered behind.ordered, ?_⟩
  have whole : List.range' next (last - next) =
      List.range' next (middle - next) ++ List.range' middle (last - middle) := by
    have start : next + 1 * (middle - next) = middle := by
      have := before.ordered
      omega
    have length : last - next = (middle - next) + (last - middle) := by
      have := before.ordered
      have := behind.ordered
      omega
    rw [length, ← List.range'_append, start]
  rw [whole, ← List.append_assoc]
  exact behind.among.trans ((List.subperm_append_right _).2 before.among)

/-- Two rows of labels, of which one was drawn behind the other. -/
theorem append (before : Draws [] next middle labels) (behind : Draws [] middle last more) :
    Draws [] next last (labels ++ more) := by
  have beyond := behind.beside labels
  rw [List.append_nil] at beyond
  exact before.trans beyond

/-- No number is drawn twice. -/
theorem nodup (draws : Draws [] next last labels) : labels.Nodup := by
  obtain ⟨sorted, perm, sublist⟩ := draws.among
  exact perm.nodup_iff.1 (sublist.nodup List.nodup_range')

/-- What is drawn lies in between. -/
theorem mem (draws : Draws [] next last labels) {reference : Nat}
    (member : reference ∈ labels) : next ≤ reference ∧ reference < last := by
  have inside := draws.among.subset member
  rw [List.nil_append, List.mem_range'_1] at inside
  have := draws.ordered
  omega

end Draws

/-! ## Labels and shape -/

namespace Expr

variable {allowed : Token → Prop}

mutual

theorem shaped_unlabelled (expr : Expr ρ) :
    expr.unlabelled.Shaped allowed ↔ expr.Shaped allowed := by
  match expr with
  | literal value => exact Iff.rfl
  | grouping inner => exact shaped_unlabelled inner
  | unary operator operand => simp only [unlabelled, Shaped, shaped_unlabelled operand]
  | binary left operator right =>
      simp only [unlabelled, Shaped, shaped_unlabelled left, shaped_unlabelled right]
  | logical left operator right =>
      simp only [unlabelled, Shaped, shaped_unlabelled left, shaped_unlabelled right]
  | .variable _ name => exact Iff.rfl
  | assign _ name value => simp only [unlabelled, Shaped, shaped_unlabelled value]
  | call callee paren arguments =>
      simp only [unlabelled, Shaped, shaped_unlabelled callee, allShaped_unlabelled arguments]
  | get object name => simp only [unlabelled, Shaped, shaped_unlabelled object]
  | set object name value =>
      simp only [unlabelled, Shaped, shaped_unlabelled object, shaped_unlabelled value]
  | this _ keyword => exact Iff.rfl

theorem allShaped_unlabelled (exprs : List (Expr ρ)) :
    AllShaped allowed (allUnlabelled exprs) ↔ AllShaped allowed exprs := by
  match exprs with
  | [] => exact Iff.rfl
  | expr :: rest =>
      simp only [allUnlabelled, AllShaped, shaped_unlabelled expr, allShaped_unlabelled rest]

end

end Expr

namespace Stmt

theorem allUnlabelled_eq_map (stmts : List (Stmt ρ)) :
    allUnlabelled stmts = stmts.map unlabelled := by
  induction stmts with
  | nil => rfl
  | cons stmt rest ih => rw [allUnlabelled, ih, List.map_cons]

variable {allowed : Token → Prop}

theorem isDeclaration_unlabelled (stmt : Stmt ρ) :
    stmt.unlabelled.isDeclaration = stmt.isDeclaration := by
  cases stmt with
  | varDecl name initializer => cases initializer <;> rfl
  | conditional condition onTrue onFalse => cases onFalse <;> rfl
  | returning keyword value => cases value <;> rfl
  | _ => rfl

mutual

theorem shaped_unlabelled (stmt : Stmt ρ) :
    stmt.unlabelled.Shaped allowed ↔ stmt.Shaped allowed := by
  match stmt with
  | expression expr => exact expr.shaped_unlabelled
  | print expr => exact expr.shaped_unlabelled
  | varDecl name none => exact Iff.rfl
  | varDecl name (some expr) => simp only [unlabelled, Shaped, expr.shaped_unlabelled]
  | block body => exact allShaped_unlabelled body
  | conditional condition onTrue none =>
      simp only [unlabelled, Shaped, condition.shaped_unlabelled, shaped_unlabelled onTrue,
        isDeclaration_unlabelled]
  | conditional condition onTrue (some onFalse) =>
      simp only [unlabelled, Shaped, condition.shaped_unlabelled, shaped_unlabelled onTrue,
        shaped_unlabelled onFalse, isDeclaration_unlabelled]
  | whileLoop condition body =>
      simp only [unlabelled, Shaped, condition.shaped_unlabelled, shaped_unlabelled body,
        isDeclaration_unlabelled]
  | funDecl declaration => exact functionShaped_unlabelled declaration
  | returning _ none => exact Iff.rfl
  | returning _ (some expr) => exact expr.shaped_unlabelled
  | classDecl name methods =>
      simp only [unlabelled, Shaped, methodsShaped_unlabelled methods]

theorem functionShaped_unlabelled (declaration : FunctionDecl ρ) :
    FunctionShaped allowed (functionUnlabelled declaration) ↔
      FunctionShaped allowed declaration := by
  match declaration with
  | .mk name parameters body =>
      simp only [functionUnlabelled, FunctionShaped, allShaped_unlabelled body]

theorem methodsShaped_unlabelled (methods : List (FunctionDecl ρ)) :
    MethodsShaped allowed (methodsUnlabelled methods) ↔ MethodsShaped allowed methods := by
  match methods with
  | [] => exact Iff.rfl
  | method :: rest =>
      simp only [methodsUnlabelled, MethodsShaped, functionShaped_unlabelled method,
        methodsShaped_unlabelled rest]

theorem allShaped_unlabelled (stmts : List (Stmt ρ)) :
    AllShaped allowed (allUnlabelled stmts) ↔ AllShaped allowed stmts := by
  match stmts with
  | [] => exact Iff.rfl
  | stmt :: rest =>
      simp only [allUnlabelled, AllShaped, shaped_unlabelled stmt, allShaped_unlabelled rest]

end

end Stmt

end Lox
