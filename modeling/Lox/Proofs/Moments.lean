/-
# The moments of a run

Running a statement, evaluating an expression or calling a value asks for other
things to be run in turn.  A moment is one of these tasks together with the
machine on which it starts and its allowance, and `Moment.Asks` says which
moments come directly of another one.  Where a task depends on the outcome of
an earlier one, the outcome is that of the evaluator itself, and there is
something behind it only if it finishes (`Execution.behind`).

A moment misses a variable if it evaluates the variable, an assignment to it or
`this`, and the variable is not there.
-/

import Mathlib.Logic.Relation
import Lox.Proofs.Execution

namespace Lox

open Execution

/-- What the evaluator is asked to do. -/
inductive Task where
  | evaluate (expr : Expr Reference)
  | evaluateAll (exprs : List (Expr Reference))
  | call (callee : Value) (paren : Token) (arguments : List Value)
  | execute (stmt : Stmt Reference)
  | loop (condition : Expr Reference) (body : Stmt Reference)
  | executeAll (stmts : List (Stmt Reference))

/-- What comes behind a computation, if it finishes. -/
def Execution.behind {α β : Type} (outcome : EStateM.Result Interrupt Machine α)
    (more : α → Machine → List β) : List β :=
  match outcome with
  | .ok value machine => more value machine
  | .error .. => []

theorem Execution.exists_of_mem_behind {α β : Type} {outcome : EStateM.Result Interrupt Machine α}
    {more : α → Machine → List β} {item : β} (member : item ∈ behind outcome more) :
    ∃ value machine, outcome = .ok value machine ∧ item ∈ more value machine := by
  cases outcome with
  | ok value machine => exact ⟨value, machine, rfl, member⟩
  | error interrupt machine => cases member

/-- A task with the machine on which it starts. -/
structure Moment where
  allowance : Nat
  task : Task
  machine : Machine

namespace Moment

/-- The first moment directly asks for the second one. -/
inductive Asks (distances : Distances) : Moment → Moment → Prop where
  | inner {n : Nat} {m : Machine} {inner : Expr Reference} :
      Asks distances ⟨n + 1, .evaluate (.grouping inner), m⟩ ⟨n, .evaluate inner, m⟩
  | operand {n : Nat} {m : Machine} {operator : Token} {operand : Expr Reference} :
      Asks distances ⟨n + 1, .evaluate (.unary operator operand), m⟩ ⟨n, .evaluate operand, m⟩
  | left {n : Nat} {m : Machine} {left right : Expr Reference} {operator : Token} :
      Asks distances ⟨n + 1, .evaluate (.binary left operator right), m⟩ ⟨n, .evaluate left, m⟩
  | right {n : Nat} {m m' : Machine} {left right : Expr Reference} {operator : Token}
      {value : Value} (ran : evaluate distances n left m = .ok value m') :
      Asks distances ⟨n + 1, .evaluate (.binary left operator right), m⟩ ⟨n, .evaluate right, m'⟩
  | first {n : Nat} {m : Machine} {left right : Expr Reference} {operator : Token} :
      Asks distances ⟨n + 1, .evaluate (.logical left operator right), m⟩ ⟨n, .evaluate left, m⟩
  | second {n : Nat} {m m' : Machine} {left right : Expr Reference} {operator : Token}
      {value : Value} (ran : evaluate distances n left m = .ok value m')
      (goesOn : settles operator value = false) :
      Asks distances ⟨n + 1, .evaluate (.logical left operator right), m⟩ ⟨n, .evaluate right, m'⟩
  | value {n : Nat} {m : Machine} {reference : Reference} {name : Token} {value : Expr Reference} :
      Asks distances ⟨n + 1, .evaluate (.assign reference name value), m⟩ ⟨n, .evaluate value, m⟩
  | callee {n : Nat} {m : Machine} {callee : Expr Reference} {paren : Token}
      {arguments : List (Expr Reference)} :
      Asks distances ⟨n + 1, .evaluate (.call callee paren arguments), m⟩ ⟨n, .evaluate callee, m⟩
  | arguments {n : Nat} {m m' : Machine} {callee : Expr Reference} {paren : Token}
      {arguments : List (Expr Reference)} {value : Value}
      (ran : evaluate distances n callee m = .ok value m') :
      Asks distances ⟨n + 1, .evaluate (.call callee paren arguments), m⟩
        ⟨n, .evaluateAll arguments, m'⟩
  | call {n : Nat} {m m' m'' : Machine} {callee : Expr Reference} {paren : Token}
      {arguments : List (Expr Reference)} {value : Value} {values : List Value}
      (ran : evaluate distances n callee m = .ok value m')
      (ran' : evaluateAll distances n arguments m' = .ok values m'') :
      Asks distances ⟨n + 1, .evaluate (.call callee paren arguments), m⟩
        ⟨n, .call value paren values, m''⟩
  | object {n : Nat} {m : Machine} {object : Expr Reference} {name : Token} :
      Asks distances ⟨n + 1, .evaluate (.get object name), m⟩ ⟨n, .evaluate object, m⟩
  | owner {n : Nat} {m : Machine} {object value : Expr Reference} {name : Token} :
      Asks distances ⟨n + 1, .evaluate (.set object name value), m⟩ ⟨n, .evaluate object, m⟩
  | stored {n : Nat} {m m' : Machine} {object value : Expr Reference} {name : Token}
      {owner : Instance} (ran : evaluate distances n object m = .ok (.instanceValue owner) m') :
      Asks distances ⟨n + 1, .evaluate (.set object name value), m⟩ ⟨n, .evaluate value, m'⟩
  | firstExpr {n : Nat} {m : Machine} {first : Expr Reference} {rest : List (Expr Reference)} :
      Asks distances ⟨n + 1, .evaluateAll (first :: rest), m⟩ ⟨n, .evaluate first, m⟩
  | otherExprs {n : Nat} {m m' : Machine} {first : Expr Reference}
      {rest : List (Expr Reference)} {value : Value}
      (ran : evaluate distances n first m = .ok value m') :
      Asks distances ⟨n + 1, .evaluateAll (first :: rest), m⟩ ⟨n, .evaluateAll rest, m'⟩
  | body {n : Nat} {m : Machine} {closure : Closure} {paren : Token} {arguments : List Value}
      (arity : arguments.length = closure.declaration.parameters.length) :
      Asks distances ⟨n + 1, .call (.function closure) paren arguments, m⟩
        ⟨n, .executeAll closure.declaration.body, m.entering closure.home
          (argumentBindings closure.declaration.parameters arguments)⟩
  | expression {n : Nat} {m : Machine} {expr : Expr Reference} :
      Asks distances ⟨n + 1, .execute (.expression expr), m⟩ ⟨n, .evaluate expr, m⟩
  | print {n : Nat} {m : Machine} {expr : Expr Reference} :
      Asks distances ⟨n + 1, .execute (.print expr), m⟩ ⟨n, .evaluate expr, m⟩
  | initializer {n : Nat} {m : Machine} {name : Token} {initializer : Expr Reference} :
      Asks distances ⟨n + 1, .execute (.varDecl name (some initializer)), m⟩
        ⟨n, .evaluate initializer, m⟩
  | block {n : Nat} {m : Machine} {body : List (Stmt Reference)} :
      Asks distances ⟨n + 1, .execute (.block body), m⟩
        ⟨n, .executeAll body, m.entering m.current {}⟩
  | condition {n : Nat} {m : Machine} {condition : Expr Reference} {onTrue : Stmt Reference}
      {onFalse : Option (Stmt Reference)} :
      Asks distances ⟨n + 1, .execute (.conditional condition onTrue onFalse), m⟩
        ⟨n, .evaluate condition, m⟩
  | onTrue {n : Nat} {m m' : Machine} {condition : Expr Reference} {onTrue : Stmt Reference}
      {onFalse : Option (Stmt Reference)} {value : Value}
      (ran : evaluate distances n condition m = .ok value m') (truthy : value.isTruthy = true) :
      Asks distances ⟨n + 1, .execute (.conditional condition onTrue onFalse), m⟩
        ⟨n, .execute onTrue, m'⟩
  | onFalse {n : Nat} {m m' : Machine} {condition : Expr Reference}
      {onTrue onFalse : Stmt Reference} {value : Value}
      (ran : evaluate distances n condition m = .ok value m') (falsy : value.isTruthy = false) :
      Asks distances ⟨n + 1, .execute (.conditional condition onTrue (some onFalse)), m⟩
        ⟨n, .execute onFalse, m'⟩
  | loop {n : Nat} {m : Machine} {condition : Expr Reference} {body : Stmt Reference} :
      Asks distances ⟨n + 1, .execute (.whileLoop condition body), m⟩ ⟨n, .loop condition body, m⟩
  | guard {n : Nat} {m : Machine} {condition : Expr Reference} {body : Stmt Reference} :
      Asks distances ⟨n + 1, .loop condition body, m⟩ ⟨n, .evaluate condition, m⟩
  | round {n : Nat} {m m' : Machine} {condition : Expr Reference} {body : Stmt Reference}
      {value : Value} (ran : evaluate distances n condition m = .ok value m')
      (truthy : value.isTruthy = true) :
      Asks distances ⟨n + 1, .loop condition body, m⟩ ⟨n, .execute body, m'⟩
  | again {n : Nat} {m m' m'' : Machine} {condition : Expr Reference} {body : Stmt Reference}
      {value : Value} (ran : evaluate distances n condition m = .ok value m')
      (truthy : value.isTruthy = true) (ran' : execute distances n body m' = .ok .normal m'') :
      Asks distances ⟨n + 1, .loop condition body, m⟩ ⟨n, .loop condition body, m''⟩
  | returned {n : Nat} {m : Machine} {keyword : Token} {expr : Expr Reference} :
      Asks distances ⟨n + 1, .execute (.returning keyword (some expr)), m⟩ ⟨n, .evaluate expr, m⟩
  | firstStmt {n : Nat} {m : Machine} {first : Stmt Reference} {rest : List (Stmt Reference)} :
      Asks distances ⟨n + 1, .executeAll (first :: rest), m⟩ ⟨n, .execute first, m⟩
  | otherStmts {n : Nat} {m m' : Machine} {first : Stmt Reference} {rest : List (Stmt Reference)}
      (ran : execute distances n first m = .ok .normal m') :
      Asks distances ⟨n + 1, .executeAll (first :: rest), m⟩ ⟨n, .executeAll rest, m'⟩

/-- The first moment asks for the second one, directly or in more steps. -/
def Reaches (distances : Distances) : Moment → Moment → Prop :=
  Relation.ReflTransGen (Asks distances)

/-- At this moment a variable is looked up or assigned, and it is not there. -/
inductive Misses (distances : Distances) : Moment → Reference → Token → Prop where
  | named {n : Nat} {m m' : Machine} {reference : Reference} {name : Token}
      (missing : lookUp distances[reference]? name m =
        .error (.runtime ⟨.undefinedVariable name.lexeme, name.line⟩) m') :
      Misses distances ⟨n + 1, .evaluate (.variable reference name), m⟩ reference name
  | receiver {n : Nat} {m m' : Machine} {reference : Reference} {keyword : Token}
      (missing : lookUp distances[reference]? keyword m =
        .error (.runtime ⟨.undefinedVariable keyword.lexeme, keyword.line⟩) m') :
      Misses distances ⟨n + 1, .evaluate (.this reference keyword), m⟩ reference keyword
  | assigned {n : Nat} {m m' m'' : Machine} {reference : Reference} {name : Token}
      {expr : Expr Reference} {value : Value} (ran : evaluate distances n expr m = .ok value m')
      (missing : assign distances[reference]? name value m' =
        .error (.runtime ⟨.undefinedVariable name.lexeme, name.line⟩) m'') :
      Misses distances ⟨n + 1, .evaluate (.assign reference name expr), m⟩ reference name

end Moment

end Lox
