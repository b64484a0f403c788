/-
# Syntax trees

Expressions and statements as a program's text gives them.  A node keeps the
tokens that a later message or listing needs: operators, names, the closing
parenthesis of a call, the words `this` and `return`.

A *reference* is an expression node that names a variable: a use of a
variable, an assignment to one, or `this`.  References carry a label of a type
`ρ`.  A tree that has just been read carries none (`Unit`), so that equal
texts give equal trees; a tree that is going to run carries numbers that tell
all its references apart.

There is no loop with clauses: it is read as a block around a conditional
loop.
-/

import Lox.Token

namespace Lox

/-- A value written out in a program. -/
inductive Literal where
  | number (value : Float)
  | string (text : String)
  | boolean (value : Bool)
  | nil
deriving DecidableEq

/-- An expression whose references are labelled by `ρ`. -/
inductive Expr (ρ : Type) where
  | literal (value : Literal)
  /-- An expression in parentheses. -/
  | grouping (inner : Expr ρ)
  | unary (operator : Token) (operand : Expr ρ)
  | binary (left : Expr ρ) (operator : Token) (right : Expr ρ)
  /-- An operator that may leave its right operand alone. -/
  | logical (left : Expr ρ) (operator : Token) (right : Expr ρ)
  | variable (reference : ρ) (name : Token)
  | assign (reference : ρ) (name : Token) (value : Expr ρ)
  /-- A call, with the parenthesis that closes its arguments. -/
  | call (callee : Expr ρ) (paren : Token) (arguments : List (Expr ρ))
  /-- A property that is read. -/
  | get (object : Expr ρ) (name : Token)
  /-- A property that is set. -/
  | set (object : Expr ρ) (name : Token) (value : Expr ρ)
  | this (reference : ρ) (keyword : Token)

mutual

/-- A statement whose references are labelled by `ρ`. -/
inductive Stmt (ρ : Type) where
  | expression (expr : Expr ρ)
  | print (expr : Expr ρ)
  | varDecl (name : Token) (initializer : Option (Expr ρ))
  | block (body : List (Stmt ρ))
  | conditional (condition : Expr ρ) (onTrue : Stmt ρ) (onFalse : Option (Stmt ρ))
  | whileLoop (condition : Expr ρ) (body : Stmt ρ)
  | funDecl (declaration : FunctionDecl ρ)
  /-- A return, with the word that starts it; without a value it gives nil. -/
  | returning (keyword : Token) (value : Option (Expr ρ))
  | classDecl (name : Token) (methods : List (FunctionDecl ρ))

/-- The declaration of a function or a method. -/
inductive FunctionDecl (ρ : Type) where
  | mk (name : Token) (parameters : List Token) (body : List (Stmt ρ))

end

namespace FunctionDecl

variable {ρ : Type}

/-- The name of a declared function. -/
def name : FunctionDecl ρ → Token
  | mk name _ _ => name

/-- The names of the parameters of a declared function. -/
def parameters : FunctionDecl ρ → List Token
  | mk _ parameters _ => parameters

/-- The statements that a declared function runs. -/
def body : FunctionDecl ρ → List (Stmt ρ)
  | mk _ _ body => body

end FunctionDecl

end Lox
