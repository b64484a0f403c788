/-
# What a construct leaves as it was

The walk of the analysis opens scopes, enters functions and classes and comes out of
them again by hand, and a fault never stops it.  So whatever is walked through, from
any point and with any faults, the walk is behind it in the context in which it was in
front of it, and it has changed no scope but the innermost one
(`Analysis.Restores`).

In the innermost scope a statement initializes the names that it declares there
itself, and does nothing else (`Analysis.flag?_stmt`); an expression and a function do
nothing at all.
-/

import Lox.Proofs.Context
import Lox.Proofs.Sites.Walk

namespace Lox

namespace Analysis

/-- Whether the innermost scope holds a name as initialized, if it declares the name. -/
def flag? (analysis : Analysis) (name : String) : Option Bool :=
  analysis.scopes.head?.bind (·[name]?)

/-- The later point of a walk is in the context of the earlier one, and no scope but the
innermost has changed.  That one declares what it declared before, and no name has been
left without its initializer. -/
structure Restores (earlier later : Analysis) : Prop extends InContext earlier later where
  outer : later.scopes.tail = earlier.scopes.tail
  kept : ∀ name, (earlier.flag? name).isSome = true → (later.flag? name).isSome = true
  settled : ∀ name, later.flag? name = some false → earlier.flag? name = some false

theorem flag?_congr {first second : Analysis} (same : first.scopes = second.scopes)
    (name : String) : first.flag? name = second.flag? name := by
  rw [flag?, flag?, same]

/-- A declaration with its initializer behind it initializes its name, if it stands in a
scope. -/
theorem flag?_of_defined {earlier later : Analysis} {name : Token}
    (same : later.scopes = defined name.lexeme (declared name.lexeme earlier.scopes))
    (key : String) : later.flag? key =
      if earlier.scopes ≠ [] ∧ key ∈ [name.lexeme] then some true else earlier.flag? key := by
  rw [flag?, same, flag?]
  cases earlier.scopes with
  | nil => rfl
  | cons scope outer =>
      simp only [declared, defined, List.head?_cons, Option.bind_some, Bindings.getElem?_insert]
      by_cases own : key = name.lexeme <;> simp [own]

/-- One part behind another one initializes the names of both. -/
theorem flag?_append {first second third : Analysis} {names more : List String} {key : String}
    (height : second.scopes.length = first.scopes.length)
    (before : second.flag? key =
      if first.scopes ≠ [] ∧ key ∈ names then some true else first.flag? key)
    (behind : third.flag? key =
      if second.scopes ≠ [] ∧ key ∈ more then some true else second.flag? key) :
    third.flag? key =
      if first.scopes ≠ [] ∧ key ∈ names ++ more then some true else first.flag? key := by
  have sameOpen : second.scopes ≠ [] ↔ first.scopes ≠ [] := by
    rw [← List.length_pos_iff, ← List.length_pos_iff, height]
  rw [behind, before]
  by_cases inScope : first.scopes ≠ [] <;> by_cases here : key ∈ names <;>
    by_cases later : key ∈ more <;> simp [sameOpen, inScope, here, later]

/-- A statement initializes the names that it declares in its own scope, and changes
nothing else there. -/
theorem flag?_stmt (analysis : Analysis) (stmt : Stmt Reference) (key : String) :
    (analysis.stmt stmt).flag? key =
      if analysis.scopes ≠ [] ∧ key ∈ stmt.declaredNames then some true
      else analysis.flag? key := by
  have nothing {later : Analysis} (same : later.scopes = analysis.scopes) : later.flag? key =
      if analysis.scopes ≠ [] ∧ key ∈ ([] : List String) then some true
      else analysis.flag? key := by
    rw [flag?_congr same, if_neg fun both => List.not_mem_nil both.2]
  have tested (condition : Expr Reference) := nothing (scopes_expr analysis condition)
  have height (condition : Expr Reference) := (InContext.expr analysis condition).height
  cases stmt with
  | expression value => exact tested value
  | print value => exact tested value
  | varDecl name initializer =>
      cases initializer with
      | none => exact flag?_of_defined (by rw [Analysis.stmt, scopes_define, scopes_declare]) key
      | some initializer =>
          apply flag?_of_defined
          rw [Analysis.stmt, scopes_define, scopes_expr, scopes_declare]
  | block body => exact nothing (tail_stmts analysis.enter body)
  | conditional condition onTrue onFalse =>
      have behind := flag?_append (height condition) (tested condition) (flag?_stmt _ onTrue key)
      cases onFalse with
      | none => exact behind
      | some onFalse =>
          have chosen := (InContext.stmt (analysis.expr condition) onTrue).height
          exact flag?_append (chosen.trans (height condition)) behind (flag?_stmt _ onFalse key)
  | whileLoop condition body =>
      exact flag?_append (height condition) (tested condition) (flag?_stmt _ body key)
  | funDecl declaration =>
      apply flag?_of_defined
      rw [Analysis.stmt, scopes_function, scopes_define, scopes_declare]
  | returning keyword value =>
      cases value with
      | none => exact nothing (scopes_returning analysis keyword)
      | some value =>
          exact nothing ((scopes_expr _ value).trans (scopes_returning analysis keyword))
  | classDecl name members =>
      apply flag?_of_defined
      rw [scopes_classDecl, scopes_define, scopes_declare]

/-- What changes no scope restores everything. -/
theorem InContext.restores {earlier later : Analysis} (context : InContext earlier later)
    (same : later.scopes = earlier.scopes) : Restores earlier later where
  toInContext := context
  outer := congrArg List.tail same
  kept name held := flag?_congr same name ▸ held
  settled name unset := flag?_congr same name ▸ unset

theorem Restores.trans {first second third : Analysis} (before : Restores first second)
    (behind : Restores second third) : Restores first third where
  toInContext := before.toInContext.trans behind.toInContext
  outer := behind.outer.trans before.outer
  kept name held := behind.kept name (before.kept name held)
  settled name unset := before.settled name (behind.settled name unset)

theorem restores_stmt (analysis : Analysis) (stmt : Stmt Reference) :
    Restores analysis (analysis.stmt stmt) where
  toInContext := InContext.stmt analysis stmt
  outer := tail_stmt analysis stmt
  kept name held := by
    rw [flag?_stmt]
    split
    · rfl
    · exact held
  settled name unset := by
    rw [flag?_stmt] at unset
    split at unset
    · cases unset
    · exact unset

theorem restores_stmts (analysis : Analysis) (stmts : List (Stmt Reference)) :
    Restores analysis (analysis.stmts stmts) := by
  induction stmts generalizing analysis with
  | nil => exact (InContext.refl analysis).restores rfl
  | cons stmt rest ih => exact (restores_stmt analysis stmt).trans (ih (analysis.stmt stmt))

end Analysis

/-- Whatever is walked through, and whatever faults there are in it, the walk comes back
to where it was: as many scopes are open, it is in the same function and the same
class, and no scope but the innermost has changed.  An expression and a function change
no scope at all.  A statement adds to the innermost scope the names that it declares
there itself, which are then initialized, and leaves all others as they were. -/
theorem walk_restores_context (analysis : Analysis) :
    (∀ expr, (analysis.expr expr).scopes = analysis.scopes ∧
      analysis.Restores (analysis.expr expr)) ∧
    (∀ stmt, analysis.Restores (analysis.stmt stmt) ∧ ∀ name,
      (analysis.stmt stmt).flag? name =
        if analysis.scopes ≠ [] ∧ name ∈ stmt.declaredNames then some true
        else analysis.flag? name) ∧
    (∀ stmts, analysis.Restores (analysis.stmts stmts)) ∧
    ∀ kind declaration, (analysis.function kind declaration).scopes = analysis.scopes ∧
      analysis.Restores (analysis.function kind declaration) := by
  refine ⟨fun expr => ?_, fun stmt => ?_, analysis.restores_stmts, fun kind declaration => ?_⟩
  · have same := analysis.scopes_expr expr
    exact ⟨same, (Analysis.InContext.expr analysis expr).restores same⟩
  · exact ⟨analysis.restores_stmt stmt, analysis.flag?_stmt stmt⟩
  · have same := analysis.scopes_function kind declaration
    exact ⟨same, (Analysis.InContext.function analysis kind declaration).restores same⟩

end Lox
