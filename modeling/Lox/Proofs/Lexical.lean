/-
# Lexical scoping

An evaluator that knows nothing of scopes and distances.  Its statements and
expressions are those of a text before anything was analysed.

The local names in force are a list, which is never changed: a declaration puts
its name in front of the list, with a new cell for the value, and what is
behind the declaration is run with the longer list.  A function keeps the list
that was in force where it was declared.  A name stands for the nearest entry
of the list, and a name that is not in the list is a global one, looked for
whenever it is needed.

A cell is unset until the declaration that made it has its value.  An unset
cell can neither be read nor assigned.
-/

import Lox.Evaluation
import Lox.Reading.Program
import Lox.Session

namespace Lox.Lexical

/-- The number of a cell, in the order in which they were made. -/
abbrev CellId := Nat

/-- The local names in force, the nearest first, with their cells. -/
abbrev Env := List (String × CellId)

/-- A function with the names in force at its declaration. -/
abbrev Closure := ClosureOf Unit Env

/-- A class with the names in force at its declaration. -/
abbrev Class := ClassOf Unit Env

/-- An instance of a class. -/
abbrev Instance := InstanceOf Unit Env

/-- What an expression evaluates to. -/
abbrev Value := ValueOf Unit Env

/-- What a running program can change. -/
structure Memory where
  /-- All cells that were ever made; one without a value is unset. -/
  cells : Array (Option Value) := #[]
  globals : Bindings Value
  /-- The fields of each instance, by its identity. -/
  fields : Array (Bindings Value) := #[]
  /-- The next identity of a function or a class. -/
  nextIdentity : Nat := 0
  console : Console := {}
  clock : Clock

/-- A computation on the memory.  It is interrupted for the same reasons as one
on the machine. -/
abbrev Evaluation := EStateM Interrupt Memory

/-- Where a statement stands: at the top level, whose names are global, or where
these local names are in force. -/
inductive Place where
  | top
  | inside (env : Env)

/-- The local names in force at a place. -/
def Place.env : Place → Env
  | top => []
  | inside env => env

/-- How a statement that was not interrupted ended. -/
inductive Completion where
  /-- What follows the statement stands at this place. -/
  | normal (place : Place)
  /-- A return is on its way to the call that it ends. -/
  | returned (value : Value)

namespace Memory

/-- The memory of a session that has not run anything. -/
def initial (console : Console) (clock : Clock) : Memory where
  globals := ({} : Bindings Value).insert "clock" (.native .clock)
  console := console
  clock := clock

/-- The value of a cell, if it is set. -/
def cell? (memory : Memory) (cell : CellId) : Option Value :=
  memory.cells[cell]?.join

/-- The value of a name: that of its nearest local entry, or the global one. -/
def find? (memory : Memory) (env : Env) (name : String) : Option Value :=
  match env.lookup name with
  | some cell => memory.cell? cell
  | none => memory.globals[name]?

/-- Gives a name a value: its nearest local entry, or the global name. -/
def write (memory : Memory) (env : Env) (name : String) (value : Value) : Memory :=
  match env.lookup name with
  | some cell => { memory with cells := memory.cells.setIfInBounds cell (some value) }
  | none => { memory with globals := memory.globals.insert name value }

end Memory

section Steps

variable {α : Type}

/-- Stops with a run-time fault at a token. -/
def fail (place : Token) (fault : RuntimeFault) : Evaluation α :=
  throw (.runtime ⟨fault, place.line⟩)

/-- Stops at a token if there is a fault. -/
def require (place : Token) : Except RuntimeFault α → Evaluation α
  | .ok value => pure value
  | .error fault => fail place fault

/-- Stops at a token if a call has not the expected number of arguments. -/
def checkArity (place : Token) (expected given : Nat) : Evaluation Unit :=
  if given = expected then pure () else fail place (.wrongArgumentCount expected given)

/-- Puts a name in front of the names in force, with a new cell. -/
def extend (env : Env) (name : String) (value : Option Value) : Evaluation Env :=
  modifyGet fun memory =>
    ((name, memory.cells.size) :: env, { memory with cells := memory.cells.push value })

/-- Puts each parameter of a function in front of the names in force, with its
argument. -/
def bindParameters (env : Env) : List (Token × Value) → Evaluation Env
  | [] => pure env
  | (parameter, argument) :: rest => do
    bindParameters (← extend env parameter.lexeme (some argument)) rest

/-- Declares a name, without a value yet.  A global name needs no entry. -/
def declare (place : Place) (name : String) : Evaluation Place :=
  match place with
  | .top => pure .top
  | .inside env => do return .inside (← extend env name none)

/-- Gives a name that was declared its value. -/
def define (place : Place) (name : String) (value : Value) : Evaluation Unit :=
  modify (·.write place.env name value)

/-- The value of a name. -/
def lookUp (env : Env) (name : Token) : Evaluation Value := do
  match (← get).find? env name.lexeme with
  | some value => pure value
  | none => fail name (.undefinedVariable name.lexeme)

/-- Gives a name another value.  Only a name that has one can be given one. -/
def assign (env : Env) (name : Token) (value : Value) : Evaluation Unit := do
  if ((← get).find? env name.lexeme).isSome then modify (·.write env name.lexeme value)
  else fail name (.undefinedVariable name.lexeme)

/-- An identity that nothing has yet. -/
def freshIdentity : Evaluation Nat :=
  modifyGet fun memory =>
    (memory.nextIdentity, { memory with nextIdentity := memory.nextIdentity + 1 })

/-- Makes a function of a declaration and the names in force. -/
def newClosure (declaration : FunctionDecl Unit) (env : Env) : Evaluation Value := do
  return .function ⟨← freshIdentity, declaration, env⟩

/-- Makes a class where these names are in force. -/
def newClass (name : String) (methods : List (FunctionDecl Unit)) (env : Env) :
    Evaluation Value := do
  return .classValue ⟨← freshIdentity, name, methods, env⟩

/-- Makes an instance without fields. -/
def newInstance (cls : Class) : Evaluation Value :=
  modifyGet fun memory =>
    (.instanceValue ⟨memory.fields.size, cls⟩, { memory with fields := memory.fields.push {} })

/-- A method as a function, with `this` in front of the names in force. -/
def bindMethod (object : Instance) (method : FunctionDecl Unit) : Evaluation Value := do
  newClosure method (← extend object.ofClass.home "this" (some (.instanceValue object)))

/-- The property of an instance: a field if there is one of that name, and
otherwise a method. -/
def property (object : Instance) (name : Token) : Evaluation Value := do
  match (← get).fields[object.identity]?.bind (·[name.lexeme]?) with
  | some value => pure value
  | none =>
    match object.ofClass.method? name.lexeme with
    | some method => bindMethod object method
    | none => fail name (.undefinedProperty name.lexeme)

/-- Sets a field of an instance. -/
def setField (object : Instance) (name : String) (value : Value) : Evaluation Unit :=
  modify fun memory =>
    { memory with fields := memory.fields.modify object.identity (·.insert name value) }

/-- Prints a value. -/
def print (value : Value) : Evaluation Unit := do
  let memory ← get
  let (fault, console) := memory.console.print value.display
  set { memory with console := console }
  match fault with
  | none => pure ()
  | some fault => throw (.output fault)

/-- The time in seconds. -/
def readClock : Evaluation Value :=
  modifyGet fun memory =>
    (.number (memory.clock.now.toFloat / 1000000.0),
      { memory with clock := memory.clock.afterReading })

end Steps

mutual

/-- Evaluates an expression where these names are in force. -/
def evaluate : Nat → Env → Expr Unit → Evaluation Value
  | 0, _, _ => throw .exhausted
  | allowance + 1, env, expr =>
    match expr with
    | .literal value => pure (.ofLiteral value)
    | .grouping inner => evaluate allowance env inner
    | .unary operator operand => do
      let operand ← evaluate allowance env operand
      require operator (prefixValue operator operand)
    | .binary left operator right => do
      let left ← evaluate allowance env left
      let right ← evaluate allowance env right
      require operator (infixValue operator left right)
    | .logical left operator right => do
      let left ← evaluate allowance env left
      if settles operator left then pure left else evaluate allowance env right
    | .variable _ name => lookUp env name
    | .this _ keyword => lookUp env keyword
    | .assign _ name value => do
      let value ← evaluate allowance env value
      assign env name value
      pure value
    | .call callee paren arguments => do
      let callee ← evaluate allowance env callee
      let arguments ← evaluateAll allowance env arguments
      call allowance callee paren arguments
    | .get object name => do
      match ← evaluate allowance env object with
      | .instanceValue object => property object name
      | _ => fail name .propertyOfNonInstance
    | .set object name value => do
      match ← evaluate allowance env object with
      | .instanceValue object =>
        let value ← evaluate allowance env value
        setField object name.lexeme value
        pure value
      | _ => fail name .fieldOfNonInstance

/-- Evaluates a row of expressions from left to right. -/
def evaluateAll : Nat → Env → List (Expr Unit) → Evaluation (List Value)
  | 0, _, _ => throw .exhausted
  | allowance + 1, env, exprs =>
    match exprs with
    | [] => pure []
    | first :: rest => do
      let first ← evaluate allowance env first
      let rest ← evaluateAll allowance env rest
      pure (first :: rest)

/-- Calls a value.  The parameters stand in front of the names that the function
keeps. -/
def call : Nat → Value → Token → List Value → Evaluation Value
  | 0, _, _, _ => throw .exhausted
  | allowance + 1, callee, paren, arguments =>
    match callee with
    | .function closure => do
      let parameters := closure.declaration.parameters
      checkArity paren parameters.length arguments.length
      let env ← bindParameters closure.home (parameters.zip arguments)
      match ← executeAll allowance (.inside env) closure.declaration.body with
      | .normal _ => pure .nil
      | .returned value => pure value
    | .native .clock => do
      checkArity paren 0 arguments.length
      readClock
    | .classValue cls => do
      checkArity paren 0 arguments.length
      newInstance cls
    | _ => fail paren .notCallable

/-- Runs a statement at a place. -/
def execute : Nat → Place → Stmt Unit → Evaluation Completion
  | 0, _, _ => throw .exhausted
  | allowance + 1, place, stmt =>
    match stmt with
    | .expression expr => do
      let _ ← evaluate allowance place.env expr
      pure (.normal place)
    | .print expr => do
      let value ← evaluate allowance place.env expr
      print value
      pure (.normal place)
    | .varDecl name none => do
      let behind ← declare place name.lexeme
      define behind name.lexeme .nil
      pure (.normal behind)
    | .varDecl name (some initializer) => do
      let behind ← declare place name.lexeme
      let value ← evaluate allowance behind.env initializer
      define behind name.lexeme value
      pure (.normal behind)
    | .block body => do
      match ← executeAll allowance (.inside place.env) body with
      | .normal _ => pure (.normal place)
      | .returned value => pure (.returned value)
    | .conditional condition onTrue onFalse => do
      let condition ← evaluate allowance place.env condition
      if condition.isTruthy then execute allowance place onTrue
      else
        match onFalse with
        | some onFalse => execute allowance place onFalse
        | none => pure (.normal place)
    | .whileLoop condition body => loop allowance place condition body
    | .funDecl declaration => do
      let behind ← declare place declaration.name.lexeme
      let function ← newClosure declaration behind.env
      define behind declaration.name.lexeme function
      pure (.normal behind)
    | .returning _ none => pure (.returned .nil)
    | .returning _ (some expr) => do
      let value ← evaluate allowance place.env expr
      pure (.returned value)
    | .classDecl name methods => do
      let behind ← declare place name.lexeme
      let cls ← newClass name.lexeme methods behind.env
      define behind name.lexeme cls
      pure (.normal behind)

/-- Runs a loop: its body as long as its condition is true and no round
returns. -/
def loop : Nat → Place → Expr Unit → Stmt Unit → Evaluation Completion
  | 0, _, _, _ => throw .exhausted
  | allowance + 1, place, condition, body => do
    let goesOn ← evaluate allowance place.env condition
    if goesOn.isTruthy then
      match ← execute allowance place body with
      | .normal behind => loop allowance behind condition body
      | .returned value => pure (.returned value)
    else pure (.normal place)

/-- Runs a row of statements up to the first that returns, each of them at the
place behind the one before it. -/
def executeAll : Nat → Place → List (Stmt Unit) → Evaluation Completion
  | 0, _, _ => throw .exhausted
  | allowance + 1, place, stmts =>
    match stmts with
    | [] => pure (.normal place)
    | first :: rest => do
      match ← execute allowance place first with
      | .normal behind => executeAll allowance behind rest
      | .returned value => pure (.returned value)

end

/-- Runs the statements of a text at the top level. -/
def interpret (allowance : Nat) : List (Stmt Unit) → Evaluation Unit
  | [] => pure ()
  | first :: rest => do
    let _ ← execute allowance .top first
    interpret allowance rest

/-- What is run of a text.  A line that is one expression prints its value. -/
def computation (entry : Entry) (allowance : Nat) (program : List (Stmt Unit)) :
    Evaluation Unit :=
  match entry, program with
  | .line, [.expression expr] => do
    let value ← evaluate allowance [] expr
    print value
  | _, _ => interpret allowance program

/-- Performs an evaluation on a memory. -/
def Memory.perform {α : Type} (memory : Memory) (evaluation : Evaluation α) :
    Memory × Option Interrupt :=
  match evaluation.run memory with
  | .ok _ memory => (memory, none)
  | .error interrupt memory => (memory, some interrupt)

/-- Runs a text that is as good as it should be. -/
def Memory.run (memory : Memory) (allowance : Nat) (entry : Entry) (source : String) :
    Memory × Option Interrupt :=
  memory.perform
    (computation entry allowance (Program.ofSource (entry = .line) source).statements)

end Lox.Lexical
