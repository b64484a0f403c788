/-
# The nodes of a tree

A node of a tree is an expression that stands somewhere in it, the tree itself
among them if it is one.
-/

import Lox.Syntax

namespace Lox

variable {ρ : Type}

namespace Expr

mutual

/-- The expressions that stand in an expression, itself in front. -/
def nodes : Expr ρ → List (Expr ρ)
  | literal value => [.literal value]
  | grouping inner => .grouping inner :: inner.nodes
  | unary operator operand => .unary operator operand :: operand.nodes
  | binary left operator right => .binary left operator right :: (left.nodes ++ right.nodes)
  | logical left operator right => .logical left operator right :: (left.nodes ++ right.nodes)
  | .variable reference name => [.variable reference name]
  | assign reference name value => .assign reference name value :: value.nodes
  | call callee paren arguments =>
    .call callee paren arguments :: (callee.nodes ++ allNodes arguments)
  | get object name => .get object name :: object.nodes
  | set object name value => .set object name value :: (object.nodes ++ value.nodes)
  | this reference keyword => [.this reference keyword]

/-- The expressions that stand in a row of expressions. -/
def allNodes : List (Expr ρ) → List (Expr ρ)
  | [] => []
  | expr :: rest => expr.nodes ++ allNodes rest

end

/-- Every number that is written out in an expression is finite. -/
def FiniteNumbers (expr : Expr ρ) : Prop :=
  ∀ value, .literal (.number value) ∈ expr.nodes → value.isFinite = true

theorem mem_nodes_self (expr : Expr ρ) : expr ∈ expr.nodes := by
  cases expr <;> simp [nodes]

theorem mem_allNodes {exprs : List (Expr ρ)} {node : Expr ρ} :
    node ∈ allNodes exprs ↔ ∃ expr ∈ exprs, node ∈ expr.nodes := by
  induction exprs with
  | nil => simp [allNodes]
  | cons expr exprs ih => simp [allNodes, ih]

end Expr

namespace Stmt

mutual

/-- The expressions that stand in a statement. -/
def nodes : Stmt ρ → List (Expr ρ)
  | expression expr => expr.nodes
  | print expr => expr.nodes
  | varDecl _ none => []
  | varDecl _ (some expr) => expr.nodes
  | block body => allNodes body
  | conditional condition onTrue none => condition.nodes ++ onTrue.nodes
  | conditional condition onTrue (some onFalse) =>
    condition.nodes ++ onTrue.nodes ++ onFalse.nodes
  | whileLoop condition body => condition.nodes ++ body.nodes
  | funDecl declaration => functionNodes declaration
  | returning _ none => []
  | returning _ (some expr) => expr.nodes
  | classDecl _ methods => methodNodes methods

/-- The expressions that stand in the body of a function. -/
def functionNodes : FunctionDecl ρ → List (Expr ρ)
  | .mk _ _ body => allNodes body

/-- The expressions that stand in the bodies of methods. -/
def methodNodes : List (FunctionDecl ρ) → List (Expr ρ)
  | [] => []
  | method :: rest => functionNodes method ++ methodNodes rest

/-- The expressions that stand in a row of statements. -/
def allNodes : List (Stmt ρ) → List (Expr ρ)
  | [] => []
  | stmt :: rest => stmt.nodes ++ allNodes rest

end

theorem mem_allNodes {stmts : List (Stmt ρ)} {node : Expr ρ} :
    node ∈ allNodes stmts ↔ ∃ stmt ∈ stmts, node ∈ stmt.nodes := by
  induction stmts with
  | nil => simp [allNodes]
  | cons stmt stmts ih => simp [allNodes, ih]

theorem mem_methodNodes {methods : List (FunctionDecl ρ)} {node : Expr ρ} :
    node ∈ methodNodes methods ↔ ∃ method ∈ methods, node ∈ functionNodes method := by
  induction methods with
  | nil => simp [methodNodes]
  | cons method methods ih => simp [methodNodes, ih]

end Stmt

end Lox
