/-
# Sessions

A session runs one text after the other on one machine.  Every text is read
and analysed as a whole before any of it runs; if there is anything wrong with
it, it is rejected and nothing of it runs.  Errors of the scopes are only
looked for in a text without other errors.

A text comes as a script or as a line of a prompt.  A line may leave the last
semicolon off, and if it is just one expression its value is printed.

References are numbered across the whole session, in the order in which they are
read, so that the distances recorded for one text never meet those of another.
Numbers of what is dropped again while a text is read are used up.
-/

import Lox.Evaluation
import Lox.Reading.Program
import Lox.Text.Separated

namespace Lox

/-- Why a text was not run to its end.  A run that has used up its allowance has
not failed: it is not known to end. -/
inductive RunFailure where
  /-- The text was rejected before it ran. -/
  | rejected (errors : List StaticError)
  | interrupted (interrupt : Interrupt)
deriving DecidableEq

namespace RunFailure

/-- The text of a failure.  That of an allowance that is used up is never written
by a run that ends. -/
def message : RunFailure → String
  | rejected errors => Text.separated "\n" (errors.map StaticError.message)
  | interrupted (.runtime error) => error.message
  | interrupted (.output fault) => "I/O error: " ++ fault.message
  | interrupted .exhausted => "The allowance of steps is used up."

/-- The exit code by which a failure is known outside. -/
def exitCode : RunFailure → Nat
  | rejected _ => 65
  | interrupted (.runtime _) => 70
  | interrupted (.output _) => 74
  | interrupted .exhausted => 70

end RunFailure

/-- How a text comes into a session. -/
inductive Entry where
  | script
  | line
deriving DecidableEq

/-- A machine with what is known about the texts that it has run. -/
structure Session where
  machine : Machine
  /-- The distances recorded for all texts so far. -/
  distances : Distances := {}
  /-- The number of the next reference. -/
  nextReference : Reference := 0

namespace Session

/-- A session that has not run anything. -/
def start (limits : ConsoleLimits := {}) (clock : Clock := .ticking 0) : Session where
  machine := .initial { limits := limits } clock

/-- The same session with another clock. -/
def withClock (session : Session) (clock : Clock) : Session :=
  { session with machine := { session.machine with clock := clock } }

/-- An allowance that no run of practical length uses up. -/
def ampleAllowance : Nat := 1 <<< 62

/-- Reads a text, whose references get numbers that are new to the session. -/
def read (session : Session) (entry : Entry) (source : String) :
    LabelledProgram Reference × Session :=
  let reading : StateM Reference _ := Program.read (entry = .line) (tokensOf source)
  let (program, next) := reading.run session.nextReference
  (program, { session with nextReference := next })

/-- Gives the references of a program that was not read from a text numbers that
are new to the session. -/
def number {ρ : Type} (session : Session) (program : List (Stmt ρ)) :
    List (Stmt Reference) × Session :=
  let (program, next) := (Stmt.allNumbered program).run session.nextReference
  (program, { session with nextReference := next })

/-- Analyses the scopes of a program and keeps the distances. -/
def resolve (session : Session) (program : List (Stmt Reference)) :
    List StaticError × Session :=
  let (distances, errors) := analyse session.distances program
  (errors, { session with distances := distances })

/-- Records a distance for a reference, in place of any other. -/
def pin (session : Session) (reference : Reference) (distance : Nat) : Session :=
  { session with distances := session.distances.insert reference distance }

/-- What came of a run, if it ended within its allowance. -/
def ended? (outcome : Session × Option RunFailure) : Option (Session × Option RunFailure) :=
  match outcome.2 with
  | some (.interrupted .exhausted) => none
  | _ => some outcome

/-- Performs a computation on the machine of a session. -/
def perform {α : Type} (session : Session) (computation : Execution α) :
    Session × Option RunFailure :=
  match computation.run session.machine with
  | .ok _ machine => ({ session with machine := machine }, none)
  | .error interrupt machine => ({ session with machine := machine }, some (.interrupted interrupt))

/-- Runs a program whose references are numbered. -/
def execute (session : Session) (allowance : Nat) (program : List (Stmt Reference)) :
    Session × Option RunFailure :=
  session.perform (interpret session.distances allowance program)

/-- Evaluates an expression and prints its value. -/
def printValue (session : Session) (allowance : Nat) (expr : Expr Reference) :
    Session × Option RunFailure :=
  session.perform do
    let value ← evaluate session.distances allowance expr
    Execution.print value

/-- Runs a text. -/
def enter (session : Session) (allowance : Nat) (entry : Entry) (source : String) :
    Session × Option RunFailure :=
  let (program, session) := session.read entry source
  match lexicalErrorsOf source ++ program.errors with
  | first :: more => (session, some (.rejected (first :: more)))
  | [] =>
    match session.resolve program.statements with
    | (first :: more, session) => (session, some (.rejected (first :: more)))
    | ([], session) =>
      match entry, program.statements with
      | .line, [.expression expr] => session.printValue allowance expr
      | _, _ => session.execute allowance program.statements

/-- Runs a script. -/
def run (session : Session) (allowance : Nat) (source : String) : Session × Option RunFailure :=
  session.enter allowance .script source

/-- Runs a line of a prompt. -/
def runLine (session : Session) (allowance : Nat) (line : String) :
    Session × Option RunFailure :=
  session.enter allowance .line line

/-- What the session has printed since another moment of it. -/
def printedSince (session earlier : Session) : String :=
  session.machine.console.textFrom earlier.machine.console.lines.size

end Session

end Lox
