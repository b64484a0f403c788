/-
# What operators do to values

`!` takes any value, and every other prefix operator negates a number.
Equality takes any two values.  `+` adds two numbers or joins two strings.
All other infix operators take two numbers.

A tree that was built by hand may have any token for an operator.  One that is
no operator of the language is a fault after the operands have been checked.
-/

import Lox.Fault
import Lox.Value

namespace Lox

variable {ρ γ : Type}

/-- The value of a prefix operator. -/
def prefixValue (operator : Token) (operand : ValueOf ρ γ) : Except RuntimeFault (ValueOf ρ γ) :=
  if operator.isSymbol .bang then .ok (.boolean !operand.isTruthy)
  else
    match operand with
    | .number value => .ok (.number (-value))
    | _ => .error (.operandNotNumber operator.lexeme)

/-- The value of `+`. -/
def sumValue (left right : ValueOf ρ γ) : Except RuntimeFault (ValueOf ρ γ) :=
  match left, right with
  | .number left, .number right => .ok (.number (left + right))
  | .string left, .string right => .ok (.string (left ++ right))
  | .number _, _ => .error (.rightNotNumber "+")
  | .string _, _ => .error .rightNotString
  | _, _ => .error .leftNotAddable

/-- The value of an infix operator on numbers. -/
def arithmeticValue (operator : Token) (left right : Float) :
    Except RuntimeFault (ValueOf ρ γ) :=
  match operator.kind with
  | .symbol .minus => .ok (.number (left - right))
  | .symbol .star => .ok (.number (left * right))
  | .symbol .slash => .ok (.number (left / right))
  | .symbol .greater => .ok (.boolean (right < left))
  | .symbol .greaterEqual => .ok (.boolean (right ≤ left))
  | .symbol .less => .ok (.boolean (left < right))
  | .symbol .lessEqual => .ok (.boolean (left ≤ right))
  | _ => .error (.invalidOperator operator.lexeme)

/-- The value of an infix operator. -/
def infixValue (operator : Token) (left right : ValueOf ρ γ) :
    Except RuntimeFault (ValueOf ρ γ) :=
  match operator.kind with
  | .symbol .equalEqual => .ok (.boolean (left.equals right))
  | .symbol .bangEqual => .ok (.boolean !(left.equals right))
  | .symbol .plus => sumValue left right
  | _ =>
    match left, right with
    | .number left, .number right => arithmeticValue operator left right
    | .number _, _ => .error (.rightNotNumber operator.lexeme)
    | _, _ => .error (.leftNotNumber operator.lexeme)

/-- Whether the left operand of a logical operator is its value.  `or` stops
at a true one, every other at a false one. -/
def settles (operator : Token) (left : ValueOf ρ γ) : Bool :=
  if operator.isKeyword .orWord then left.isTruthy else !left.isTruthy

end Lox
