/-
# The prefix notation of trees

A tree in prefix notation is a row of words and nested rows in parentheses,
with the operator or the kind of node in front.  Words are separated by single
spaces.  Whole numbers show a point and a zero; strings stand without quotes.
-/

import Lox.Syntax
import Lox.Number.Style
import Lox.Text.Separated

namespace Lox

/-- A row of parts in parentheses. -/
def parenthesized (parts : List String) : String :=
  "(" ++ Text.separated " " parts ++ ")"

/-- A literal in prefix notation. -/
def Literal.prefixForm : Literal → String
  | number value => NumberStyle.prefixForm.write value
  | string text => text
  | boolean true => "true"
  | boolean false => "false"
  | nil => "nil"

variable {ρ : Type}

namespace Expr

mutual

/-- An expression in prefix notation. -/
def prefixForm : Expr ρ → String
  | literal value => value.prefixForm
  | grouping inner => parenthesized ["group", inner.prefixForm]
  | unary operator operand => parenthesized [operator.lexeme, operand.prefixForm]
  | binary left operator right =>
    parenthesized [operator.lexeme, left.prefixForm, right.prefixForm]
  | logical left operator right =>
    parenthesized [operator.lexeme, left.prefixForm, right.prefixForm]
  | .variable _ name => name.lexeme
  | assign _ name value => parenthesized ["=", name.lexeme, value.prefixForm]
  | call callee _ arguments =>
    parenthesized ("call" :: callee.prefixForm :: allPrefixForms arguments)
  | get object name => parenthesized [".", object.prefixForm, name.lexeme]
  | set object name value =>
    parenthesized ["set", object.prefixForm, name.lexeme, value.prefixForm]
  | this _ _ => "this"

/-- A row of expressions in prefix notation. -/
def allPrefixForms : List (Expr ρ) → List String
  | [] => []
  | expr :: rest => expr.prefixForm :: allPrefixForms rest

end

end Expr

namespace Stmt

mutual

/-- A statement in prefix notation. -/
def prefixForm : Stmt ρ → String
  | expression expr => parenthesized [";", expr.prefixForm]
  | print expr => parenthesized ["print", expr.prefixForm]
  | varDecl name none => parenthesized ["var", name.lexeme]
  | varDecl name (some expr) => parenthesized ["var", name.lexeme, expr.prefixForm]
  | block body => parenthesized ("block" :: allPrefixForms body)
  | conditional condition onTrue none =>
    parenthesized ["if", condition.prefixForm, onTrue.prefixForm]
  | conditional condition onTrue (some onFalse) =>
    parenthesized ["if", condition.prefixForm, onTrue.prefixForm, onFalse.prefixForm]
  | whileLoop condition body => parenthesized ["while", condition.prefixForm, body.prefixForm]
  | funDecl declaration => functionPrefixForm declaration
  | returning _ none => parenthesized ["return"]
  | returning _ (some expr) => parenthesized ["return", expr.prefixForm]
  | classDecl name methods => parenthesized ("class" :: name.lexeme :: methodPrefixForms methods)

/-- A function declaration in prefix notation. -/
def functionPrefixForm : FunctionDecl ρ → String
  | .mk name parameters body =>
    parenthesized
      ("fun" :: name.lexeme :: parenthesized (parameters.map Token.lexeme) :: allPrefixForms body)

/-- Method declarations in prefix notation. -/
def methodPrefixForms : List (FunctionDecl ρ) → List String
  | [] => []
  | method :: rest => functionPrefixForm method :: methodPrefixForms rest

/-- A row of statements in prefix notation. -/
def allPrefixForms : List (Stmt ρ) → List String
  | [] => []
  | stmt :: rest => stmt.prefixForm :: allPrefixForms rest

end

end Stmt

end Lox
