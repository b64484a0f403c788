/-
# Reading expressions

Expressions are read by the precedence of their operators.  From loosest to
tightest: assignment, which groups to the right; six levels of infix
operators, which group to the left; prefix operators; calls and properties;
and the atoms.

Two faults do not stop a reading.  An assignment to something that is neither
a name nor a property is noticed at its `=`, and the left side stands for the
whole.  Every argument beyond the greatest number is noticed where it starts.
-/

import Lox.Reading
import Lox.Syntax.Reference

namespace Lox

/-- The levels of infix operators. -/
inductive Precedence where
  | disjunction
  | conjunction
  | equality
  | comparison
  | term
  | factor
deriving DecidableEq

namespace Precedence

/-- The level whose operators bind one step tighter, if they are infix. -/
def tighter? : Precedence → Option Precedence
  | disjunction => some conjunction
  | conjunction => some equality
  | equality => some comparison
  | comparison => some term
  | term => some factor
  | factor => none

/-- The number of levels from this one on. -/
def height : Precedence → Nat
  | disjunction => 6
  | conjunction => 5
  | equality => 4
  | comparison => 3
  | term => 2
  | factor => 1

theorem height_pos (level : Precedence) : 0 < level.height := by
  cases level <;> decide

theorem height_le (level : Precedence) : level.height ≤ 6 := by
  cases level <;> decide

theorem height_tighter? {level next : Precedence} (h : level.tighter? = some next) :
    next.height < level.height := by
  cases level <;> cases h <;> decide

/-- Whether a token is an operator of a level. -/
def accepts (level : Precedence) (token : Token) : Bool :=
  match level, token.kind with
  | disjunction, .keyword .orWord => true
  | conjunction, .keyword .andWord => true
  | equality, .symbol .bangEqual => true
  | equality, .symbol .equalEqual => true
  | comparison, .symbol .greater => true
  | comparison, .symbol .greaterEqual => true
  | comparison, .symbol .less => true
  | comparison, .symbol .lessEqual => true
  | term, .symbol .minus => true
  | term, .symbol .plus => true
  | factor, .symbol .star => true
  | factor, .symbol .slash => true
  | _, _ => false

/-- The tree of an operator of a level and its operands. -/
def node {ρ : Type} (level : Precedence) (left : Expr ρ) (operator : Token) (right : Expr ρ) :
    Expr ρ :=
  match level with
  | disjunction => .logical left operator right
  | conjunction => .logical left operator right
  | _ => .binary left operator right

end Precedence

/-- Whether a token is a prefix operator. -/
def isPrefixOperator (token : Token) : Bool :=
  token.isSymbol .bang || token.isSymbol .minus

variable {m : Type → Type} [Monad m] {ρ : Type} [Labelling m ρ]

open Labelling (label)

/-- What an assignment means: the variable or the property on its left side is
given the value.  Any other left side is a fault, noticed at the `=`.  The
assignment to a variable has a label of its own. -/
def assigned (target : Expr ρ) (equals : Token) (value : Expr ρ) : m (Expr ρ × List Notice) :=
  match target with
  | .variable _ name => return (.assign (← label) name value, [])
  | .get object name => return (.set object name value, [])
  | other => return (other, [⟨.invalidAssignmentTarget, some equals⟩])

/-- The expression that one token is, if it is an atom. -/
def atom? (token : Token) : Option (m (Expr ρ)) :=
  match token.kind with
  | .keyword .falseWord => some (return .literal (.boolean false))
  | .keyword .trueWord => some (return .literal (.boolean true))
  | .keyword .nilWord => some (return .literal .nil)
  | .number value => some (return .literal (.number value))
  | .string text => some (return .literal (.string text))
  | .keyword .thisWord => some (return .this (← label) token)
  | .identifier => some (return .variable (← label) token)
  | _ => none

mutual

/-- Reads an expression. -/
def expression (tokens : List Token) : Reader m (Expr ρ) tokens.length :=
  (operation .disjunction tokens).andPerhaps fun target rest _ => assignment target rest
termination_by 18 * tokens.length + 15
decreasing_by
  · simp only [Precedence.height]
    omega
  · omega

/-- Reads the value that the expression in front is assigned, if it is. -/
def assignment (target : Expr ρ) (tokens : List Token) :
    Reader m (Expr ρ) (tokens.length + 1) :=
  match tokens with
  | [] => .still target []
  | first :: rest =>
    if first.isSymbol .equal then
      ((expression rest).andPerhaps fun value rest _ =>
        .acting (assigned target first value) fun made =>
          (Reader.still made.1 rest).noticing made.2).behind.behind
    else .still target (first :: rest)
termination_by 18 * tokens.length
decreasing_by
  simp only [List.length_cons]
  omega

/-- Reads the operations of a level. -/
def operation (level : Precedence) (tokens : List Token) : Reader m (Expr ρ) tokens.length :=
  (operand level tokens).andPerhaps fun left rest _ => operations level left rest
termination_by 18 * tokens.length + 2 * level.height + 2
decreasing_by all_goals omega

/-- Reads an operand of a level. -/
def operand (level : Precedence) (tokens : List Token) : Reader m (Expr ρ) tokens.length :=
  match _tighter : level.tighter? with
  | some next => operation next tokens
  | none => prefixed tokens
termination_by 18 * tokens.length + 2 * level.height + 1
decreasing_by
  · have := Precedence.height_tighter? _tighter
    omega
  · have := level.height_pos
    omega

/-- Reads the operators and operands of a level that follow a first operand. -/
def operations (level : Precedence) (left : Expr ρ) (tokens : List Token) :
    Reader m (Expr ρ) (tokens.length + 1) :=
  match tokens with
  | [] => .still left []
  | first :: rest =>
    if level.accepts first then
      ((operand level rest).andPerhaps fun right rest _ =>
        operations level (level.node left first right) rest).behind.behind
    else .still left (first :: rest)
termination_by 18 * tokens.length
decreasing_by
  · have := level.height_le
    simp only [List.length_cons]
    omega
  · simp only [List.length_cons]
    omega

/-- Reads prefix operators and what they apply to. -/
def prefixed (tokens : List Token) : Reader m (Expr ρ) tokens.length :=
  match tokens with
  | [] => .stopped .noExpression []
  | first :: rest =>
    if isPrefixOperator first then ((prefixed rest).map (.unary first)).behind
    else (primary first rest).andPerhaps fun callee rest _ => suffixes callee rest
termination_by 18 * tokens.length + 2
decreasing_by all_goals (simp only [List.length_cons]; omega)

/-- Reads the calls and properties that follow an expression. -/
def suffixes (callee : Expr ρ) (tokens : List Token) :
    Reader m (Expr ρ) (tokens.length + 1) :=
  match tokens with
  | [] => .still callee []
  | first :: rest =>
    if first.isSymbol .leftParen then
      ((argumentList rest).andPerhaps fun (arguments, paren) rest _ =>
        suffixes (.call callee paren arguments) rest).behind.behind
    else if first.isSymbol .dot then
      ((expect Token.isIdentifier .noPropertyName rest).andPerhaps fun name rest _ =>
        suffixes (.get callee name) rest).behind.behind
    else .still callee (first :: rest)
termination_by 18 * tokens.length
decreasing_by all_goals (simp only [List.length_cons]; omega)

/-- Reads the arguments of a call and the parenthesis that closes them. -/
def argumentList (tokens : List Token) : Reader m (List (Expr ρ) × Token) tokens.length :=
  match tokens with
  | [] => .stopped .noExpression []
  | first :: rest =>
    if first.isSymbol .rightParen then .still ([], first) rest
    else
      (arguments 0 (first :: rest)).andThen fun arguments rest _ =>
        (expect (·.isSymbol .rightParen) .argumentsNotClosed rest).map (arguments, ·)
termination_by 18 * tokens.length + 17
decreasing_by omega

/-- Reads arguments separated by commas, the first of which comes after
`count` others. -/
def arguments (count : Nat) (tokens : List Token) : Reader m (List (Expr ρ)) tokens.length :=
  let notices := if mostArguments ≤ count then [⟨.tooManyArguments, tokens.head?⟩] else []
  ((expression tokens).noticing notices).andPerhaps fun first rest _ =>
    (furtherArguments (count + 1) rest).map (first :: ·)
termination_by 18 * tokens.length + 16
decreasing_by all_goals omega

/-- Reads the arguments behind the next comma, if there is one. -/
def furtherArguments (count : Nat) (tokens : List Token) :
    Reader m (List (Expr ρ)) (tokens.length + 1) :=
  match tokens with
  | [] => .still [] []
  | first :: rest =>
    if first.isSymbol .comma then (arguments count rest).behind.behind
    else .still [] (first :: rest)
termination_by 18 * tokens.length
decreasing_by
  simp only [List.length_cons]
  omega

/-- Reads an atom or an expression in parentheses, of which the first token is
given. -/
def primary (first : Token) (tokens : List Token) : Reader m (Expr ρ) (tokens.length + 1) :=
  match atom? first with
  | some atom => .acting atom fun expr => .still expr tokens
  | none =>
    if first.isSymbol .leftParen then
      ((expression tokens).andThen fun inner rest _ =>
        (expect (·.isSymbol .rightParen) .groupNotClosed rest).map fun _ =>
          .grouping inner).behind
    else .stopped .noExpression (first :: tokens)
termination_by 18 * tokens.length + 16
decreasing_by omega

end

end Lox
