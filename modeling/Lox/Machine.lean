/-
# The machine that runs programs

The machine holds everything that a running program can change: the frames,
the current one among them, the fields of all instances, the console, the
counter behind identities, and a clock.

A step of a program either finishes or is interrupted, by a run-time error,
by the console, or because its allowance of steps is used up.  Either way it
leaves a machine, and what was done before an interrupt stays done.

The allowance is no part of the language.  It bounds a run, so that every run
comes to something, and a run that has used it up is one that has not ended yet,
and that may never end.
-/

import Lox.Console
import Lox.Fault
import Lox.Value

namespace Lox

/-- A clock: the time in microseconds that it shows at every reading, and how
often it was read.  Nothing is said of the times; they need not even grow. -/
structure Clock where
  shows : Nat → Int64
  readings : Nat := 0

namespace Clock

/-- The time that the next reading shows. -/
def now (clock : Clock) : Int64 :=
  clock.shows clock.readings

/-- The clock after a reading. -/
def afterReading (clock : Clock) : Clock :=
  { clock with readings := clock.readings + 1 }

/-- A clock that starts at a time and moves on by a microsecond with every
reading. -/
def ticking (start : Nat) : Clock where
  shows reading := Int64.ofNat (start + reading)

/-- A time stands for the clock that starts at it. -/
instance : Coe Nat Clock where
  coe := ticking

end Clock

/-- The state of a running program. -/
structure Machine where
  frames : FrameStore Value
  /-- The innermost frame of the statement that is running. -/
  current : FrameId
  /-- The fields of each instance, by its identity. -/
  fields : Array (Bindings Value) := #[]
  /-- The next identity of a function or a class. -/
  nextIdentity : Nat := 0
  console : Console := {}
  clock : Clock

/-- Why a program stopped early. -/
inductive Interrupt where
  | runtime (error : RuntimeError)
  | output (fault : OutputFault)
  /-- The allowance of steps is used up: the run goes on beyond what is told of it. -/
  | exhausted
deriving DecidableEq

/-- A computation on the machine. -/
abbrev Execution := EStateM Interrupt Machine

/-- How a statement that was not interrupted ended. -/
inductive Completion where
  | normal
  /-- A return is on its way to the call that it ends. -/
  | returned (value : Value)

namespace Machine

/-- The number of the frame of the globals. -/
def globals : FrameId := 0

/-- A machine that has not run anything.  The only global is the clock. -/
def initial (console : Console) (clock : Clock) : Machine where
  frames :=
    ({} : FrameStore Value).push none (({} : Bindings Value).insert "clock" (.native .clock))
  current := globals
  console := console
  clock := clock

end Machine

namespace Execution

variable {α : Type}

/-- Stops with a run-time fault at a token. -/
def fail (place : Token) (fault : RuntimeFault) : Execution α :=
  throw (.runtime ⟨fault, place.line⟩)

/-- Stops at a token if there is a fault. -/
def require (place : Token) : Except RuntimeFault α → Execution α
  | .ok value => pure value
  | .error fault => fail place fault

/-- An identity that nothing has yet. -/
def freshIdentity : Execution Nat :=
  modifyGet fun machine =>
    (machine.nextIdentity, { machine with nextIdentity := machine.nextIdentity + 1 })

/-- Makes a frame and gives its number. -/
def newFrame (enclosing : FrameId) (bindings : Bindings Value := {}) : Execution FrameId :=
  modifyGet fun machine =>
    (machine.frames.nextId,
      { machine with frames := machine.frames.push (some enclosing) bindings })

/-- Runs a computation in a frame, and comes back to the frame before it
however the computation ends. -/
def within (frame : FrameId) (computation : Execution α) : Execution α := fun machine =>
  let previous := machine.current
  match computation { machine with current := frame } with
  | .ok value machine => .ok value { machine with current := previous }
  | .error interrupt machine => .error interrupt { machine with current := previous }

/-- Binds a name in the current frame. -/
def define (name : String) (value : Value) : Execution Unit :=
  modify fun machine =>
    { machine with frames := machine.frames.define machine.current name value }

/-- The value of a variable: in the frame at its distance, or among the
globals if it has none. -/
def lookUp (distance : Option Nat) (name : Token) : Execution Value := do
  let machine ← get
  let found :=
    match distance with
    | some distance => machine.frames.getAt? machine.current distance name.lexeme
    | none => machine.frames.get? Machine.globals name.lexeme
  match found with
  | some value => pure value
  | none => fail name (.undefinedVariable name.lexeme)

/-- Gives a variable a value: in the frame at its distance, or among the
globals if it has none.  Only a variable that is there can be given one. -/
def assign (distance : Option Nat) (name : Token) (value : Value) : Execution Unit := do
  let machine ← get
  let binder :=
    match distance with
    | some distance => machine.frames.binderAt? machine.current distance name.lexeme
    | none => machine.frames.binder? Machine.globals name.lexeme
  match binder with
  | some binder =>
    modify fun machine =>
      { machine with frames := machine.frames.define binder name.lexeme value }
  | none => fail name (.undefinedVariable name.lexeme)

/-- Makes a function of a declaration and the frame around it. -/
def newClosure (declaration : FunctionDecl Reference) (frame : FrameId) : Execution Value := do
  return .function ⟨← freshIdentity, declaration, frame⟩

/-- Makes a class declared in the current frame. -/
def newClass (name : String) (methods : List (FunctionDecl Reference)) : Execution Value := do
  let identity ← freshIdentity
  return .classValue ⟨identity, name, methods, (← get).current⟩

/-- Makes an instance without fields. -/
def newInstance (cls : Class) : Execution Value :=
  modifyGet fun machine =>
    (.instanceValue ⟨machine.fields.size, cls⟩, { machine with fields := machine.fields.push {} })

/-- A method as a function: in a new frame that binds `this` to an
instance. -/
def bindMethod (object : Instance) (method : FunctionDecl Reference) : Execution Value := do
  let receiver := ({} : Bindings Value).insert "this" (.instanceValue object)
  newClosure method (← newFrame object.ofClass.home receiver)

/-- The property of an instance: a field if there is one of that name, and
otherwise a method. -/
def property (object : Instance) (name : Token) : Execution Value := do
  match (← get).fields[object.identity]?.bind (·[name.lexeme]?) with
  | some value => pure value
  | none =>
    match object.ofClass.method? name.lexeme with
    | some method => bindMethod object method
    | none => fail name (.undefinedProperty name.lexeme)

/-- Sets a field of an instance. -/
def setField (object : Instance) (name : String) (value : Value) : Execution Unit :=
  modify fun machine =>
    { machine with fields := machine.fields.modify object.identity (·.insert name value) }

/-- Prints a value. -/
def print (value : Value) : Execution Unit := do
  let machine ← get
  let (fault, console) := machine.console.print value.display
  set { machine with console := console }
  match fault with
  | none => pure ()
  | some fault => throw (.output fault)

/-- The time in seconds. -/
def readClock : Execution Value :=
  modifyGet fun machine =>
    (.number (machine.clock.now.toFloat / 1000000.0),
      { machine with clock := machine.clock.afterReading })

/-- Stops at a token if a call has not the expected number of arguments. -/
def checkArity (place : Token) (expected given : Nat) : Execution Unit :=
  if given = expected then pure () else fail place (.wrongArgumentCount expected given)

end Execution

end Lox
