/-
# A console that fails

Two machines are compared that differ only in the limits of their consoles: one
never fails, and the other one fails in one way as soon as so many lines have been
flushed.  Whatever is run, the second machine does the same as the first one as
long as the first one prints no line more than that; the first line too many stops
it with the fault of its console (`Execution.Cut`).

Such an outcome passes through every computation that comes behind: none of them
is run, and the lines that the first machine goes on to print only come behind
those that the second one has written.
-/

import Lox.Proofs.Execution

namespace Lox

/-- The limits of a console that fails in this way once so many lines have been
flushed. -/
def OutputFault.after (flushes : Nat) : OutputFault → ConsoleLimits
  | pipeClosed => { write := some flushes }
  | flushFailed => { flush := some flushes }

/-- How many lines have been written when a console fails after so many flushes.
The line whose flush fails is one of them. -/
def OutputFault.written (flushes : Nat) : OutputFault → Nat
  | pipeClosed => flushes
  | flushFailed => flushes + 1

theorem OutputFault.written_add (fault : OutputFault) (more flushes : Nat) :
    fault.written (more + flushes) = more + fault.written flushes := by
  cases fault <;> rfl

/-- The same console with other limits. -/
def Console.limited (console : Console) (limits : ConsoleLimits) : Console :=
  { console with limits := limits }

namespace Machine

/-- The same machine with other limits of its console. -/
def limited (machine : Machine) (limits : ConsoleLimits) : Machine :=
  { machine with console := machine.console.limited limits }

/-- The later machine has printed on, and its console cannot fail. -/
structure Prints (earlier later : Machine) : Prop where
  unlimited : later.console.limits = {}
  lines : earlier.console.lines.toList <+: later.console.lines.toList
  count : later.console.lines.size + earlier.console.flushed =
    earlier.console.lines.size + later.console.flushed

namespace Prints

variable {first second third : Machine}

theorem trans (before : first.Prints second) (behind : second.Prints third) :
    first.Prints third := by
  have count := before.count
  have count' := behind.count
  exact ⟨behind.unlimited, before.lines.trans behind.lines, by omega⟩

theorem of_console_eq (unlimited : first.console.limits = {})
    (same : second.console = first.console) : first.Prints second :=
  ⟨same ▸ unlimited, same ▸ List.prefix_refl _, by rw [same]⟩

/-- Lines are only added, so no flush is taken back. -/
theorem flushed_le (prints : first.Prints second) :
    first.console.flushed ≤ second.console.flushed := by
  have count := prints.count
  have more := prints.lines.length_le
  rw [Array.length_toList, Array.length_toList] at more
  omega

end Prints

end Machine

namespace Execution

variable {α β : Type} {fault : OutputFault} {flushes : Nat} {machine : Machine}

/-- An outcome on a machine whose console cannot fail. -/
def Prints (machine : Machine) : EStateM.Result Interrupt Machine α → Prop
  | .ok _ later => machine.Prints later
  | .error interrupt later => machine.Prints later ∧ ∀ fault, interrupt ≠ .output fault

/-- The machine that an outcome leaves. -/
def machineOf : EStateM.Result Interrupt Machine α → Machine
  | .ok _ later => later
  | .error _ later => later

/-- The same outcome with other limits of the console. -/
def limitedOutcome (limits : ConsoleLimits) :
    EStateM.Result Interrupt Machine α → EStateM.Result Interrupt Machine α
  | .ok value later => .ok value (later.limited limits)
  | .error interrupt later => .error interrupt (later.limited limits)

theorem Prints.machineOf {outcome : EStateM.Result Interrupt Machine α}
    (prints : Prints machine outcome) : machine.Prints (machineOf outcome) := by
  cases outcome with
  | ok value later => exact prints
  | error interrupt later => exact prints.1

theorem Prints.after {later : Machine} {outcome : EStateM.Result Interrupt Machine α}
    (before : machine.Prints later) (prints : Prints later outcome) : Prints machine outcome := by
  cases outcome with
  | ok value later => exact before.trans prints
  | error interrupt later => exact ⟨before.trans prints.1, prints.2⟩

/-- What a computation comes to on a console that cannot fail, and on one that fails
in this way after so many flushes. -/
inductive Cuts (fault : OutputFault) (flushes : Nat) (machine : Machine) :
    EStateM.Result Interrupt Machine α → EStateM.Result Interrupt Machine α → Prop where
  /-- There were not too many lines to print. -/
  | alike {outcome : EStateM.Result Interrupt Machine α} (prints : Prints machine outcome)
      (enough : (machineOf outcome).console.flushed ≤ flushes) :
      Cuts fault flushes machine outcome (limitedOutcome (fault.after flushes) outcome)
  /-- There was a line too many. -/
  | cut {outcome : EStateM.Result Interrupt Machine α} {broken : Machine}
      (prints : Prints machine outcome)
      (beyond : flushes < (machineOf outcome).console.flushed)
      (lines : broken.console.lines.toList <+: (machineOf outcome).console.lines.toList)
      (count : broken.console.lines.size + machine.console.flushed =
        machine.console.lines.size + fault.written flushes) :
      Cuts fault flushes machine outcome (.error (.output fault) broken)

/-- What was printed before is printed before either outcome. -/
theorem Cuts.after {later : Machine} {outcome outcome' : EStateM.Result Interrupt Machine α}
    (before : machine.Prints later) (cuts : Cuts fault flushes later outcome outcome') :
    Cuts fault flushes machine outcome outcome' := by
  cases cuts with
  | alike prints enough => exact .alike (.after before prints) enough
  | cut prints beyond lines count =>
      have sizes := before.count
      exact .cut (.after before prints) beyond lines (by omega)

theorem Cuts.prints {outcome outcome' : EStateM.Result Interrupt Machine α}
    (cuts : Cuts fault flushes machine outcome outcome') : Prints machine outcome := by
  cases cuts with
  | alike prints => exact prints
  | cut prints => exact prints

/-- On a console that fails in this way, a computation does the same until there is
a line too many. -/
def Cut (fault : OutputFault) (computation : Execution α) : Prop :=
  ∀ flushes machine, machine.console.limits = {} → machine.console.flushed ≤ flushes →
    Cuts fault flushes machine (computation machine)
      (computation (machine.limited (fault.after flushes)))

/-- On a console that cannot fail, a computation only prints. -/
theorem Cut.prints {computation : Execution α} (cut : Cut fault computation)
    (unlimited : machine.console.limits = {}) : Prints machine (computation machine) :=
  (cut _ machine unlimited (Nat.le_refl _)).prints

theorem Cut.bind {computation : Execution α} {next : α → Execution β}
    (before : Cut fault computation) (behind : ∀ value, Cut fault (next value)) :
    Cut fault (computation >>= next) := by
  intro flushes machine unlimited enough
  show Cuts fault flushes machine (EStateM.bind computation next machine)
    (EStateM.bind computation next (machine.limited (fault.after flushes)))
  rw [EStateM.bind, EStateM.bind]
  have cuts := before flushes machine unlimited enough
  generalize computation machine = outcome at cuts
  generalize computation (machine.limited (fault.after flushes)) = outcome' at cuts
  cases cuts with
  | alike prints enough =>
      cases outcome with
      | ok value later => exact (behind value flushes later prints.unlimited enough).after prints
      | error interrupt later => exact .alike prints enough
  | cut prints beyond lines count =>
      cases outcome with
      | error interrupt later => exact .cut prints beyond lines count
      | ok value later =>
          -- The first machine goes on, and prints only behind what it has printed.
          have further := (behind value).prints prints.unlimited
          exact .cut (.after prints further)
            (Nat.lt_of_lt_of_le beyond further.machineOf.flushed_le)
            (lines.trans further.machineOf.lines) count

/-- What runs in another frame. -/
theorem Cut.within {frame : FrameId} {computation : Execution α}
    (inside : Cut fault computation) : Cut fault (within frame computation) := by
  intro flushes machine unlimited enough
  have cuts := inside flushes { machine with current := frame } unlimited enough
  have same : ({ machine.limited (fault.after flushes) with current := frame } : Machine) =
    ({ machine with current := frame } : Machine).limited (fault.after flushes) := rfl
  simp only [Execution.within]
  rw [same]
  generalize computation { machine with current := frame } = outcome at cuts
  generalize computation (Machine.limited { machine with current := frame } _) = outcome' at cuts
  cases cuts with
  | alike prints enough =>
      cases outcome with
      | ok value later => exact .alike ⟨prints.unlimited, prints.lines, prints.count⟩ enough
      | error interrupt later =>
          exact .alike ⟨⟨prints.1.unlimited, prints.1.lines, prints.1.count⟩, prints.2⟩ enough
  | cut prints beyond lines count =>
      cases outcome with
      | ok value later =>
          exact .cut ⟨prints.unlimited, prints.lines, prints.count⟩ beyond lines count
      | error interrupt later =>
          exact .cut ⟨⟨prints.1.unlimited, prints.1.lines, prints.1.count⟩, prints.2⟩ beyond lines
            count

/-- Looking at anything but the console is the same on both machines. -/
theorem Cut.get_bind {next : Machine → Execution α}
    (same : ∀ machine limits, next (machine.limited limits) = next machine)
    (cut : ∀ machine, Cut fault (next machine)) : Cut fault (get >>= next) := by
  intro flushes machine unlimited enough
  show Cuts fault flushes machine (next machine machine)
    (next (machine.limited (fault.after flushes)) (machine.limited (fault.after flushes)))
  rw [same]
  exact cut machine flushes machine unlimited enough

/-! ## What does not print -/

/-- A computation that leaves the console alone. -/
structure Silent (computation : Execution α) : Prop where
  console : ∀ machine, (machineOf (computation machine)).console = machine.console
  noOutput : ∀ machine later fault, computation machine ≠ .error (.output fault) later
  limited : ∀ machine limits, computation (machine.limited limits) =
    limitedOutcome limits (computation machine)

theorem Silent.cut {computation : Execution α} (silent : Silent computation) :
    Cut fault computation := by
  intro flushes machine unlimited enough
  rw [silent.limited]
  have console := silent.console machine
  have noOutput := silent.noOutput machine
  generalize computation machine = outcome at console noOutput
  refine .alike ?_ (console ▸ enough)
  cases outcome with
  | ok value later => exact .of_console_eq unlimited console
  | error interrupt later =>
      refine ⟨.of_console_eq unlimited console, fun other same => ?_⟩
      exact noOutput later other (congrArg (EStateM.Result.error · later) same)

theorem cut_pure (value : α) : Cut fault (pure value) :=
  Silent.cut ⟨fun _ => rfl, nofun, fun _ _ => rfl⟩

theorem cut_fail (place : Token) (cause : RuntimeFault) :
    Cut fault (fail place cause : Execution α) :=
  Silent.cut ⟨fun _ => rfl, nofun, fun _ _ => rfl⟩

theorem cut_exhausted : Cut fault (throw .exhausted : Execution α) :=
  Silent.cut ⟨fun _ => rfl, nofun, fun _ _ => rfl⟩

theorem cut_require (place : Token) (result : Except RuntimeFault α) :
    Cut fault (require place result) := by
  cases result with
  | ok value => exact cut_pure value
  | error cause => exact cut_fail place cause

theorem cut_checkArity (place : Token) (expected given : Nat) :
    Cut fault (checkArity place expected given) := by
  unfold checkArity
  split
  · exact cut_pure ()
  · exact cut_fail _ _

theorem cut_freshIdentity : Cut fault freshIdentity :=
  Silent.cut ⟨fun _ => rfl, nofun, fun _ _ => rfl⟩

theorem cut_newFrame (enclosing : FrameId) (bindings : Bindings Value) :
    Cut fault (newFrame enclosing bindings) :=
  Silent.cut ⟨fun _ => rfl, nofun, fun _ _ => rfl⟩

theorem cut_define (name : String) (value : Value) : Cut fault (define name value) :=
  Silent.cut ⟨fun _ => rfl, nofun, fun _ _ => rfl⟩

theorem cut_lookUp (distance : Option Nat) (name : Token) : Cut fault (lookUp distance name) := by
  apply Cut.get_bind (fun _ _ => rfl)
  intro machine
  dsimp only
  split
  · exact cut_pure _
  · exact cut_fail _ _

theorem cut_assign (distance : Option Nat) (name : Token) (value : Value) :
    Cut fault (assign distance name value) := by
  apply Cut.get_bind (fun _ _ => rfl)
  intro machine
  dsimp only
  split
  · exact Silent.cut ⟨fun _ => rfl, nofun, fun _ _ => rfl⟩
  · exact cut_fail _ _

theorem cut_newClosure (declaration : FunctionDecl Reference) (frame : FrameId) :
    Cut fault (newClosure declaration frame) :=
  cut_freshIdentity.bind fun _ => cut_pure _

theorem cut_newClass (name : String) (methods : List (FunctionDecl Reference)) :
    Cut fault (newClass name methods) :=
  cut_freshIdentity.bind fun _ => .get_bind (fun _ _ => rfl) fun _ => cut_pure _

theorem cut_newInstance (cls : Class) : Cut fault (newInstance cls) :=
  Silent.cut ⟨fun _ => rfl, nofun, fun _ _ => rfl⟩

theorem cut_property (object : Instance) (name : Token) : Cut fault (property object name) := by
  apply Cut.get_bind (fun _ _ => rfl)
  intro machine
  split
  · exact cut_pure _
  · split
    · exact (cut_newFrame _ _).bind fun _ => cut_newClosure _ _
    · exact cut_fail _ _

theorem cut_setField (object : Instance) (name : String) (value : Value) :
    Cut fault (setField object name value) :=
  Silent.cut ⟨fun _ => rfl, nofun, fun _ _ => rfl⟩

theorem cut_readClock : Cut fault readClock :=
  Silent.cut ⟨fun _ => rfl, nofun, fun _ _ => rfl⟩

/-! ## Printing -/

/-- The console when a line has been written and flushed. -/
def printed (console : Console) (line : String) : Console :=
  { console.written line with flushed := console.flushed + 1 }

theorem print_of_unlimited {console : Console} (unlimited : console.limits = {})
    (line : String) : console.print line = (none, printed console line) := by
  simp [Console.print, Console.reached, unlimited, printed]

/-- As long as there are flushes left, a line is printed. -/
theorem print_of_lt {console : Console} (left : console.flushed < flushes) (line : String) :
    (console.limited (fault.after flushes)).print line =
      (none, (printed console line).limited (fault.after flushes)) := by
  have more : ¬ flushes ≤ console.flushed := Nat.not_le.2 left
  cases fault <;>
    simp [Console.print, Console.reached, Console.limited, OutputFault.after, Console.written,
      printed, more]

/-- When no flush is left, the next line meets the fault. -/
theorem print_of_eq (fault : OutputFault) {console : Console} (spent : console.flushed = flushes)
    (line : String) :
    ∃ broken : Console,
      (console.limited (fault.after flushes)).print line = (some fault, broken) ∧
        broken.lines.toList <+: (printed console line).lines.toList ∧
          broken.lines.size + console.flushed = console.lines.size + fault.written flushes := by
  cases fault with
  | pipeClosed =>
      refine ⟨console.limited (OutputFault.pipeClosed.after flushes), ?_, ?_, by rw [spent]; rfl⟩
      · simp [Console.print, Console.reached, Console.limited, OutputFault.after, spent]
      · simp [Console.limited, Console.written, printed]
  | flushFailed =>
      refine ⟨(console.limited (OutputFault.flushFailed.after flushes)).written line, ?_,
        List.prefix_refl _, ?_⟩
      · simp [Console.print, Console.reached, Console.limited, OutputFault.after, spent]
      · rw [spent, Console.written, Array.size_push, OutputFault.written, Nat.succ_add]
        rfl

theorem print_of_done {value : Value} {console : Console}
    (done : machine.console.print value.display = (none, console)) :
    print value machine = .ok () { machine with console := console } := by
  rw [print, get_bind_apply]
  dsimp only
  rw [done]
  rfl

theorem print_of_fault {value : Value} {console : Console}
    (failed : machine.console.print value.display = (some fault, console)) :
    print value machine = .error (.output fault) { machine with console := console } := by
  rw [print, get_bind_apply]
  dsimp only
  rw [failed]
  rfl

theorem cut_print (value : Value) : Cut fault (print value) := by
  intro flushes machine unlimited enough
  let later : Machine := { machine with console := printed machine.console value.display }
  have healthy : print value machine = .ok () later :=
    print_of_done (print_of_unlimited unlimited _)
  have prints : machine.Prints later := by
    refine ⟨unlimited, ?_, ?_⟩
    · simp [later, printed, Console.written]
    · simp only [later, printed, Console.written, Array.size_push]
      omega
  rw [healthy]
  rcases Nat.lt_or_eq_of_le enough with left | spent
  · have same : print value (machine.limited (fault.after flushes)) =
        .ok () (later.limited (fault.after flushes)) := print_of_done (print_of_lt left _)
    rw [same]
    exact .alike prints left
  · obtain ⟨broken, failed, lines, count⟩ := print_of_eq fault spent value.display
    have stops : print value (machine.limited (fault.after flushes)) =
        .error (.output fault) { machine with console := broken } := print_of_fault failed
    rw [stops]
    exact .cut prints (spent ▸ Nat.lt_succ_self _) lines count

end Execution

open Execution

variable {distances : Distances} {fault : OutputFault}

mutual

/-- An expression is cut by a failing console. -/
theorem cut_evaluate (allowance : Nat) (expr : Expr Reference) :
    Execution.Cut fault (evaluate distances allowance expr) := by
  match allowance, expr with
  | 0, _ => exact cut_exhausted
  | allowance + 1, .literal value => exact cut_pure _
  | allowance + 1, .grouping inner => exact cut_evaluate allowance inner
  | allowance + 1, .unary operator operand =>
      exact (cut_evaluate allowance operand).bind fun _ => cut_require _ _
  | allowance + 1, .binary left operator right =>
      exact (cut_evaluate allowance left).bind fun _ =>
        (cut_evaluate allowance right).bind fun _ => cut_require _ _
  | allowance + 1, .logical left operator right =>
      apply (cut_evaluate allowance left).bind
      intro value
      split
      · exact cut_pure value
      · exact cut_evaluate allowance right
  | allowance + 1, .variable reference name => exact cut_lookUp _ name
  | allowance + 1, .this reference keyword => exact cut_lookUp _ keyword
  | allowance + 1, .assign reference name value =>
      exact (cut_evaluate allowance value).bind fun _ =>
        (cut_assign _ name _).bind fun _ => cut_pure _
  | allowance + 1, .call callee paren arguments =>
      exact (cut_evaluate allowance callee).bind fun _ =>
        (cut_evaluateAll allowance arguments).bind fun _ => cut_call allowance _ paren _
  | allowance + 1, .get object name =>
      apply (cut_evaluate allowance object).bind
      intro owner
      split
      · exact cut_property _ name
      · exact cut_fail _ _
  | allowance + 1, .set object name value =>
      apply (cut_evaluate allowance object).bind
      intro owner
      split
      · exact (cut_evaluate allowance value).bind fun _ =>
          (cut_setField _ _ _).bind fun _ => cut_pure _
      · exact cut_fail _ _

/-- A row of expressions is cut by a failing console. -/
theorem cut_evaluateAll (allowance : Nat) (exprs : List (Expr Reference)) :
    Execution.Cut fault (evaluateAll distances allowance exprs) := by
  match allowance, exprs with
  | 0, _ => exact cut_exhausted
  | allowance + 1, [] => exact cut_pure _
  | allowance + 1, first :: rest =>
      exact (cut_evaluate allowance first).bind fun _ =>
        (cut_evaluateAll allowance rest).bind fun _ => cut_pure _

/-- A call is cut by a failing console. -/
theorem cut_call (allowance : Nat) (callee : Value) (paren : Token) (arguments : List Value) :
    Execution.Cut fault (call distances allowance callee paren arguments) := by
  match allowance, callee with
  | 0, _ => exact cut_exhausted
  | allowance + 1, .function closure =>
      apply (cut_checkArity _ _ _).bind
      intro _
      apply (cut_newFrame _ _).bind
      intro frame
      apply (cut_executeAll allowance closure.declaration.body).within.bind
      intro completion
      cases completion with
      | normal => exact cut_pure _
      | returned value => exact cut_pure value
  | allowance + 1, .native .clock =>
      exact (cut_checkArity _ _ _).bind fun _ => cut_readClock
  | allowance + 1, .classValue cls =>
      exact (cut_checkArity _ _ _).bind fun _ => cut_newInstance cls
  | allowance + 1, .nil => exact cut_fail _ _
  | allowance + 1, .boolean _ => exact cut_fail _ _
  | allowance + 1, .number _ => exact cut_fail _ _
  | allowance + 1, .string _ => exact cut_fail _ _
  | allowance + 1, .instanceValue _ => exact cut_fail _ _

/-- A statement is cut by a failing console. -/
theorem cut_execute (allowance : Nat) (stmt : Stmt Reference) :
    Execution.Cut fault (execute distances allowance stmt) := by
  match allowance, stmt with
  | 0, _ => exact cut_exhausted
  | allowance + 1, .expression expr =>
      exact (cut_evaluate allowance expr).bind fun _ => cut_pure _
  | allowance + 1, .print expr =>
      exact (cut_evaluate allowance expr).bind fun _ => (cut_print _).bind fun _ => cut_pure _
  | allowance + 1, .varDecl name none => exact (cut_define _ _).bind fun _ => cut_pure _
  | allowance + 1, .varDecl name (some initializer) =>
      exact (cut_evaluate allowance initializer).bind fun _ =>
        (cut_define _ _).bind fun _ => cut_pure _
  | allowance + 1, .block body =>
      exact .get_bind (fun _ _ => rfl) fun _ =>
        (cut_newFrame _ _).bind fun _ => (cut_executeAll allowance body).within
  | allowance + 1, .conditional condition onTrue onFalse =>
      apply (cut_evaluate allowance condition).bind
      intro value
      split
      · exact cut_execute allowance onTrue
      · split
        · exact cut_execute allowance _
        · exact cut_pure _
  | allowance + 1, .whileLoop condition body => exact cut_loop allowance condition body
  | allowance + 1, .funDecl declaration =>
      exact .get_bind (fun _ _ => rfl) fun _ => (cut_newClosure _ _).bind fun _ =>
        (cut_define _ _).bind fun _ => cut_pure _
  | allowance + 1, .returning _ none => exact cut_pure _
  | allowance + 1, .returning _ (some expr) =>
      exact (cut_evaluate allowance expr).bind fun _ => cut_pure _
  | allowance + 1, .classDecl name methods =>
      exact (cut_newClass _ _).bind fun _ => (cut_define _ _).bind fun _ => cut_pure _

/-- A loop is cut by a failing console. -/
theorem cut_loop (allowance : Nat) (condition : Expr Reference) (body : Stmt Reference) :
    Execution.Cut fault (loop distances allowance condition body) := by
  match allowance with
  | 0 => exact cut_exhausted
  | allowance + 1 =>
      apply (cut_evaluate allowance condition).bind
      intro value
      split
      · apply (cut_execute allowance body).bind
        intro completion
        cases completion with
        | normal => exact cut_loop allowance condition body
        | returned value => exact cut_pure _
      · exact cut_pure _

/-- A row of statements is cut by a failing console. -/
theorem cut_executeAll (allowance : Nat) (stmts : List (Stmt Reference)) :
    Execution.Cut fault (executeAll distances allowance stmts) := by
  match allowance, stmts with
  | 0, _ => exact cut_exhausted
  | allowance + 1, [] => exact cut_pure _
  | allowance + 1, first :: rest =>
      apply (cut_execute allowance first).bind
      intro completion
      cases completion with
      | normal => exact cut_executeAll allowance rest
      | returned value => exact cut_pure _

end

theorem cut_interpret (allowance : Nat) (program : List (Stmt Reference)) :
    Execution.Cut fault (interpret distances allowance program) := by
  induction program with
  | nil => exact cut_pure ()
  | cons first rest ih => exact (cut_execute allowance first).bind fun _ => ih

end Lox
