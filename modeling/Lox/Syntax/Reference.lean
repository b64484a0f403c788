/-
# The references of a tree

A tree is walked in one fixed order: statements as they stand, a condition
before what it guards, the left operand before the right one, a callee before
its arguments, an object before the value that is stored in it, and the value
of an assignment before the assignment itself.

`references` lists the references of a tree in this order; `numbered` gives
them consecutive numbers in the same order, whatever labels they had before.
-/

import Lox.Syntax

namespace Lox

/-- The number that tells a reference from all others. -/
abbrev Reference := Nat

/-- A number that no reference has yet, and with it the next one. -/
def Reference.fresh : StateM Reference Reference :=
  modifyGet fun next => (next, next + 1)

/-- How references get their labels: an action that gives the label of one more
reference. -/
class Labelling (m : Type → Type) (ρ : outParam Type) where
  label : m ρ

/-- Without any action there are no labels. -/
@[default_instance]
instance : Labelling Id Unit where
  label := ()

/-- A reference takes the next number. -/
instance : Labelling (StateM Reference) Reference where
  label := Reference.fresh

variable {ρ : Type}

namespace Expr

mutual

/-- The references of an expression with the tokens that name them. -/
def references : Expr ρ → List (ρ × Token)
  | literal _ => []
  | grouping inner => inner.references
  | unary _ operand => operand.references
  | binary left _ right => left.references ++ right.references
  | logical left _ right => left.references ++ right.references
  | .variable reference name => [(reference, name)]
  | assign reference name value => value.references ++ [(reference, name)]
  | call callee _ arguments => callee.references ++ allReferences arguments
  | get object _ => object.references
  | set object _ value => object.references ++ value.references
  | this reference keyword => [(reference, keyword)]

/-- The references of a row of expressions. -/
def allReferences : List (Expr ρ) → List (ρ × Token)
  | [] => []
  | expr :: rest => expr.references ++ allReferences rest

end

open Reference (fresh)

mutual

/-- Numbers the references of an expression. -/
def numbered : Expr ρ → StateM Reference (Expr Reference)
  | literal value => pure (.literal value)
  | grouping inner => return .grouping (← inner.numbered)
  | unary operator operand => return .unary operator (← operand.numbered)
  | binary left operator right => do
    let left ← left.numbered
    return .binary left operator (← right.numbered)
  | logical left operator right => do
    let left ← left.numbered
    return .logical left operator (← right.numbered)
  | .variable _ name => return .variable (← fresh) name
  | assign _ name value => do
    let value ← value.numbered
    return .assign (← fresh) name value
  | call callee paren arguments => do
    let callee ← callee.numbered
    return .call callee paren (← allNumbered arguments)
  | get object name => return .get (← object.numbered) name
  | set object name value => do
    let object ← object.numbered
    return .set object name (← value.numbered)
  | this _ keyword => return .this (← fresh) keyword

/-- Numbers the references of a row of expressions. -/
def allNumbered : List (Expr ρ) → StateM Reference (List (Expr Reference))
  | [] => pure []
  | expr :: rest => do
    let expr ← expr.numbered
    return expr :: (← allNumbered rest)

end

end Expr

namespace Stmt

mutual

/-- The references of a statement with the tokens that name them. -/
def references : Stmt ρ → List (ρ × Token)
  | expression expr => expr.references
  | print expr => expr.references
  | varDecl _ none => []
  | varDecl _ (some expr) => expr.references
  | block body => allReferences body
  | conditional condition onTrue none => condition.references ++ onTrue.references
  | conditional condition onTrue (some onFalse) =>
    condition.references ++ onTrue.references ++ onFalse.references
  | whileLoop condition body => condition.references ++ body.references
  | funDecl declaration => functionReferences declaration
  | returning _ none => []
  | returning _ (some expr) => expr.references
  | classDecl _ methods => methodReferences methods

/-- The references in the body of a function. -/
def functionReferences : FunctionDecl ρ → List (ρ × Token)
  | .mk _ _ body => allReferences body

/-- The references in the bodies of methods. -/
def methodReferences : List (FunctionDecl ρ) → List (ρ × Token)
  | [] => []
  | method :: rest => functionReferences method ++ methodReferences rest

/-- The references of a row of statements. -/
def allReferences : List (Stmt ρ) → List (ρ × Token)
  | [] => []
  | stmt :: rest => stmt.references ++ allReferences rest

end

mutual

/-- Numbers the references of a statement. -/
def numbered : Stmt ρ → StateM Reference (Stmt Reference)
  | expression expr => return .expression (← expr.numbered)
  | print expr => return .print (← expr.numbered)
  | varDecl name none => return .varDecl name none
  | varDecl name (some expr) => return .varDecl name (some (← expr.numbered))
  | block body => return .block (← allNumbered body)
  | conditional condition onTrue none => do
    let condition ← condition.numbered
    return .conditional condition (← onTrue.numbered) none
  | conditional condition onTrue (some onFalse) => do
    let condition ← condition.numbered
    let onTrue ← onTrue.numbered
    return .conditional condition onTrue (some (← onFalse.numbered))
  | whileLoop condition body => do
    let condition ← condition.numbered
    return .whileLoop condition (← body.numbered)
  | funDecl declaration => return .funDecl (← functionNumbered declaration)
  | returning keyword none => return .returning keyword none
  | returning keyword (some expr) => return .returning keyword (some (← expr.numbered))
  | classDecl name methods => return .classDecl name (← methodsNumbered methods)

/-- Numbers the references in the body of a function. -/
def functionNumbered : FunctionDecl ρ → StateM Reference (FunctionDecl Reference)
  | .mk name parameters body => return .mk name parameters (← allNumbered body)

/-- Numbers the references in the bodies of methods. -/
def methodsNumbered : List (FunctionDecl ρ) → StateM Reference (List (FunctionDecl Reference))
  | [] => pure []
  | method :: rest => do
    let method ← functionNumbered method
    return method :: (← methodsNumbered rest)

/-- Numbers the references of a row of statements. -/
def allNumbered : List (Stmt ρ) → StateM Reference (List (Stmt Reference))
  | [] => pure []
  | stmt :: rest => do
    let stmt ← stmt.numbered
    return stmt :: (← allNumbered rest)

end

end Stmt

end Lox
