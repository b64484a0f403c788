/-
# Running statements and evaluating expressions

Every function here takes an allowance, which each of its calls and each round
of a loop shortens by one.  A program that does not end uses up any allowance
and is interrupted; a program that ends does the same with every allowance
that is large enough.

Variables are found at the distances that the analysis of scopes recorded.
Operands are evaluated from left to right.  A call evaluates what is called
before its arguments, and looks at both only then.  Setting a property looks
at the object before it evaluates the value.
-/

import Lox.Machine
import Lox.Operator
import Lox.Scope

namespace Lox

open Execution

/-- The bindings of a call: each parameter to its argument.  Of two parameters
of one name the later one counts. -/
def argumentBindings (parameters : List Token) (arguments : List Value) : Bindings Value :=
  (parameters.zip arguments).foldl
    (fun bindings (parameter, argument) => bindings.insert parameter.lexeme argument) {}

mutual

/-- Evaluates an expression. -/
def evaluate (distances : Distances) : Nat → Expr Reference → Execution Value
  | 0, _ => throw .exhausted
  | allowance + 1, expr =>
    match expr with
    | .literal value => pure (.ofLiteral value)
    | .grouping inner => evaluate distances allowance inner
    | .unary operator operand => do
      let operand ← evaluate distances allowance operand
      require operator (prefixValue operator operand)
    | .binary left operator right => do
      let left ← evaluate distances allowance left
      let right ← evaluate distances allowance right
      require operator (infixValue operator left right)
    | .logical left operator right => do
      let left ← evaluate distances allowance left
      if settles operator left then pure left else evaluate distances allowance right
    | .variable reference name => lookUp distances[reference]? name
    | .this reference keyword => lookUp distances[reference]? keyword
    | .assign reference name value => do
      let value ← evaluate distances allowance value
      assign distances[reference]? name value
      pure value
    | .call callee paren arguments => do
      let callee ← evaluate distances allowance callee
      let arguments ← evaluateAll distances allowance arguments
      call distances allowance callee paren arguments
    | .get object name => do
      match ← evaluate distances allowance object with
      | .instanceValue object => property object name
      | _ => fail name .propertyOfNonInstance
    | .set object name value => do
      match ← evaluate distances allowance object with
      | .instanceValue object =>
        let value ← evaluate distances allowance value
        setField object name.lexeme value
        pure value
      | _ => fail name .fieldOfNonInstance

/-- Evaluates a row of expressions from left to right. -/
def evaluateAll (distances : Distances) :
    Nat → List (Expr Reference) → Execution (List Value)
  | 0, _ => throw .exhausted
  | allowance + 1, exprs =>
    match exprs with
    | [] => pure []
    | first :: rest => do
      let first ← evaluate distances allowance first
      let rest ← evaluateAll distances allowance rest
      pure (first :: rest)

/-- Calls a value.  The body of a function runs in a new frame inside the one
in which the function was declared; a class makes an instance. -/
def call (distances : Distances) : Nat → Value → Token → List Value → Execution Value
  | 0, _, _, _ => throw .exhausted
  | allowance + 1, callee, paren, arguments =>
    match callee with
    | .function closure => do
      let parameters := closure.declaration.parameters
      checkArity paren parameters.length arguments.length
      let frame ← newFrame closure.home (argumentBindings parameters arguments)
      match ← within frame (executeAll distances allowance closure.declaration.body) with
      | .normal => pure .nil
      | .returned value => pure value
    | .native .clock => do
      checkArity paren 0 arguments.length
      readClock
    | .classValue cls => do
      checkArity paren 0 arguments.length
      newInstance cls
    | _ => fail paren .notCallable

/-- Runs a statement. -/
def execute (distances : Distances) : Nat → Stmt Reference → Execution Completion
  | 0, _ => throw .exhausted
  | allowance + 1, stmt =>
    match stmt with
    | .expression expr => do
      let _ ← evaluate distances allowance expr
      pure .normal
    | .print expr => do
      let value ← evaluate distances allowance expr
      print value
      pure .normal
    | .varDecl name none => do
      define name.lexeme .nil
      pure .normal
    | .varDecl name (some initializer) => do
      let value ← evaluate distances allowance initializer
      define name.lexeme value
      pure .normal
    | .block body => do
      let frame ← newFrame (← get).current
      within frame (executeAll distances allowance body)
    | .conditional condition onTrue onFalse => do
      let condition ← evaluate distances allowance condition
      if condition.isTruthy then execute distances allowance onTrue
      else
        match onFalse with
        | some onFalse => execute distances allowance onFalse
        | none => pure .normal
    | .whileLoop condition body => loop distances allowance condition body
    | .funDecl declaration => do
      let function ← newClosure declaration (← get).current
      define declaration.name.lexeme function
      pure .normal
    | .returning _ none => pure (.returned .nil)
    | .returning _ (some expr) => do
      let value ← evaluate distances allowance expr
      pure (.returned value)
    | .classDecl name methods => do
      let cls ← newClass name.lexeme methods
      define name.lexeme cls
      pure .normal

/-- Runs a loop: its body as long as its condition is true and no round
returns. -/
def loop (distances : Distances) :
    Nat → Expr Reference → Stmt Reference → Execution Completion
  | 0, _, _ => throw .exhausted
  | allowance + 1, condition, body => do
    let goesOn ← evaluate distances allowance condition
    if goesOn.isTruthy then
      match ← execute distances allowance body with
      | .normal => loop distances allowance condition body
      | .returned value => pure (.returned value)
    else pure .normal

/-- Runs a row of statements up to the first that returns. -/
def executeAll (distances : Distances) : Nat → List (Stmt Reference) → Execution Completion
  | 0, _ => throw .exhausted
  | allowance + 1, stmts =>
    match stmts with
    | [] => pure .normal
    | first :: rest => do
      match ← execute distances allowance first with
      | .normal => executeAll distances allowance rest
      | .returned value => pure (.returned value)

end

/-- Runs a program.  Its statements run one after the other; a return among
them does not end it. -/
def interpret (distances : Distances) (allowance : Nat) : List (Stmt Reference) → Execution Unit
  | [] => pure ()
  | first :: rest => do
    let _ ← execute distances allowance first
    interpret distances allowance rest

end Lox
