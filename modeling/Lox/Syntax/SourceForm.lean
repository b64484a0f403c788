/-
# The source form of expressions

An expression as source text that reads back to it.  The only parentheses are
those of groupings, which stand wherever a text that was read needed them.
Strings stand between quotes as they are; the language has no escapes.
-/

import Lox.Syntax
import Lox.Number.Style
import Lox.Text.Separated

namespace Lox

/-- A literal as source text. -/
def Literal.sourceForm : Literal → String
  | number value => NumberStyle.source.write value
  | string text => "\"" ++ text ++ "\""
  | boolean true => "true"
  | boolean false => "false"
  | nil => "nil"

variable {ρ : Type}

namespace Expr

mutual

/-- An expression as source text. -/
def sourceForm : Expr ρ → String
  | literal value => value.sourceForm
  | grouping inner => "(" ++ inner.sourceForm ++ ")"
  | unary operator operand => operator.lexeme ++ operand.sourceForm
  | binary left operator right =>
    left.sourceForm ++ " " ++ operator.lexeme ++ " " ++ right.sourceForm
  | logical left operator right =>
    left.sourceForm ++ " " ++ operator.lexeme ++ " " ++ right.sourceForm
  | .variable _ name => name.lexeme
  | assign _ name value => name.lexeme ++ " = " ++ value.sourceForm
  | call callee _ arguments =>
    callee.sourceForm ++ "(" ++ Text.separated ", " (allSourceForms arguments) ++ ")"
  | get object name => object.sourceForm ++ "." ++ name.lexeme
  | set object name value =>
    object.sourceForm ++ "." ++ name.lexeme ++ " = " ++ value.sourceForm
  | this _ _ => "this"

/-- A row of expressions as source texts. -/
def allSourceForms : List (Expr ρ) → List String
  | [] => []
  | expr :: rest => expr.sourceForm :: allSourceForms rest

end

end Expr

/-- The source form of what an expression statement or a print statement
evaluates; other statements have none. -/
def Stmt.sourceForm? : Stmt ρ → Option String
  | expression expr => some expr.sourceForm
  | print expr => some expr.sourceForm
  | _ => none

end Lox
