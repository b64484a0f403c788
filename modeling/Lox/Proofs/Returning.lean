/-
# Returns and the calls that they end

A return that stands in no function is a fault of the analysis.  So in a program
in which none is reported, every return of a statement of the top level stands in a
function of it (`Stmt.KeepsReturns`), and no run of such a statement, on whatever
machine, ends as returned: a call gives a value and never a completion.  Hence what
a program does with the completion of a statement of the top level makes no
difference.

Inside a call, a return that is on its way ends everything that is left of the call.
The moments of one call are those that its body reaches through statements alone; of
any two of them that are asked for by the same moment, if one returns, then the other
one has ended normally before it started.
-/

import Lox.Proofs.Context
import Lox.Proofs.Session
import Lox.Proofs.Steps

namespace Lox

open Execution

/-! ## Returns that stand in a function -/

namespace Stmt

mutual

/-- Every return of a statement stands in a function of it. -/
def KeepsReturns {ρ : Type} : Stmt ρ → Prop
  | block body => AllKeepReturns body
  | conditional _ onTrue none => onTrue.KeepsReturns
  | conditional _ onTrue (some onFalse) => onTrue.KeepsReturns ∧ onFalse.KeepsReturns
  | whileLoop _ body => body.KeepsReturns
  | returning .. => False
  | _ => True

/-- Every return of a row of statements stands in a function of it. -/
def AllKeepReturns {ρ : Type} : List (Stmt ρ) → Prop
  | [] => True
  | stmt :: rest => stmt.KeepsReturns ∧ AllKeepReturns rest

end

theorem AllKeepReturns.of_mem {ρ : Type} {stmts : List (Stmt ρ)} {stmt : Stmt ρ}
    (keep : AllKeepReturns stmts) (member : stmt ∈ stmts) : stmt.KeepsReturns := by
  induction stmts with
  | nil => cases member
  | cons first rest ih =>
      rcases List.mem_cons.1 member with rfl | member
      · exact keep.1
      · exact ih keep.2 member

end Stmt

namespace Analysis

/-- No return outside a function has been reported. -/
def NoReturnFault (analysis : Analysis) : Prop :=
  ∀ place, .scoping .returnOutsideFunction place ∉ analysis.errors

/-- What is not reported in the end was not reported before. -/
theorem NoReturnFault.before {own : List (Reference × Token)} {earlier later : Analysis}
    (clean : later.NoReturnFault) (adds : Adds own earlier later) : earlier.NoReturnFault :=
  fun place reported => clean place (adds.errors.subset reported)

/-- Outside every function, a return is reported. -/
theorem not_noReturnFault_returning {analysis : Analysis} (outside : analysis.inFunction = none)
    (keyword : Token) : ¬ (analysis.returning keyword).NoReturnFault := by
  intro clean
  apply clean keyword
  rw [returning, outside]
  exact List.mem_append_right _ (List.mem_singleton_self _)

mutual

/-- A statement outside every function of which no return is reported keeps its
returns in its own functions. -/
theorem keepsReturns_stmt {analysis : Analysis} (outside : analysis.inFunction = none)
    (stmt : Stmt Reference) (clean : (analysis.stmt stmt).NoReturnFault) :
    stmt.KeepsReturns := by
  match stmt with
  | .block body =>
      have inside : analysis.enter.inFunction = none := outside
      exact keepsReturns_stmts inside body clean
  | .conditional condition onTrue none =>
      have same := (InContext.expr analysis condition).inFunction
      exact keepsReturns_stmt (same.trans outside) onTrue clean
  | .conditional condition onTrue (some onFalse) =>
      have same := (InContext.expr analysis condition).inFunction
      have same' := (InContext.stmt (analysis.expr condition) onTrue).inFunction
      exact ⟨keepsReturns_stmt (same.trans outside) onTrue (clean.before (adds_stmt _ onFalse)),
        keepsReturns_stmt (same'.trans (same.trans outside)) onFalse clean⟩
  | .whileLoop condition body =>
      have same := (InContext.expr analysis condition).inFunction
      exact keepsReturns_stmt (same.trans outside) body clean
  | .returning keyword none => exact not_noReturnFault_returning outside keyword clean
  | .returning keyword (some value) =>
      exact not_noReturnFault_returning outside keyword (clean.before (adds_expr _ value))
  | .expression _ => trivial
  | .print _ => trivial
  | .varDecl .. => trivial
  | .funDecl _ => trivial
  | .classDecl .. => trivial

theorem keepsReturns_stmts {analysis : Analysis} (outside : analysis.inFunction = none)
    (stmts : List (Stmt Reference)) (clean : (analysis.stmts stmts).NoReturnFault) :
    Stmt.AllKeepReturns stmts := by
  match stmts with
  | [] => trivial
  | stmt :: rest =>
      have same := (InContext.stmt analysis stmt).inFunction
      exact ⟨keepsReturns_stmt outside stmt (clean.before (adds_stmts _ rest)),
        keepsReturns_stmts (same.trans outside) rest clean⟩

end

end Analysis

/-! ## Statements that end normally -/

namespace Execution

/-- Wherever it starts, a computation ends normally unless it is interrupted. -/
def EndsNormally (computation : Execution Completion) : Prop :=
  ∀ machine, Ensures computation machine (fun completion _ => completion = .normal)
    fun _ _ => True

theorem endsNormally_pure : EndsNormally (pure .normal) :=
  fun _ => rfl

theorem endsNormally_throw (interrupt : Interrupt) : EndsNormally (throw interrupt) :=
  fun _ => trivial

theorem endsNormally_bind {α : Type} {computation : Execution α} {next : α → Execution Completion}
    (behind : ∀ value, EndsNormally (next value)) : EndsNormally (computation >>= next) :=
  fun _ => ensures_bind (fun value later _ => behind value later) fun _ _ _ => trivial

/-- Behind what ends normally only the normal case counts. -/
theorem EndsNormally.bind {computation : Execution Completion}
    {next : Completion → Execution Completion} (before : EndsNormally computation)
    (behind : EndsNormally (next .normal)) : EndsNormally (computation >>= next) :=
  fun machine => ensures_bind
    (fun completion later ran => by
      have normal : completion = .normal := (before machine).finished ran
      rw [normal]
      exact behind later)
    fun _ _ _ => trivial

/-- What runs in another frame and finishes goes back to the frame before it. -/
theorem within_of_ok {α : Type} {computation : Execution α} {frame : FrameId} {value : α}
    {machine later : Machine}
    (ran : computation { machine with current := frame } = .ok value later) :
    within frame computation machine = .ok value { later with current := machine.current } := by
  simp only [within, ran]

theorem EndsNormally.within {computation : Execution Completion} (inside : EndsNormally computation)
    (frame : FrameId) : EndsNormally (within frame computation) :=
  fun machine => ensures_within (inside { machine with current := frame })

end Execution

section

variable {distances : Distances}

mutual

/-- A statement whose returns all stand in functions ends normally. -/
theorem endsNormally_execute (allowance : Nat) (stmt : Stmt Reference) (keeps : stmt.KeepsReturns) :
    EndsNormally (execute distances allowance stmt) := by
  match allowance, stmt with
  | 0, _ => exact endsNormally_throw _
  | n + 1, .expression _ => exact endsNormally_bind fun _ => endsNormally_pure
  | n + 1, .print _ =>
      exact endsNormally_bind fun _ => endsNormally_bind fun _ => endsNormally_pure
  | n + 1, .varDecl _ none => exact endsNormally_bind fun _ => endsNormally_pure
  | n + 1, .varDecl _ (some _) =>
      exact endsNormally_bind fun _ => endsNormally_bind fun _ => endsNormally_pure
  | n + 1, .block body =>
      exact endsNormally_bind fun _ => endsNormally_bind fun frame =>
        (endsNormally_executeAll n body keeps).within frame
  | n + 1, .conditional _ onTrue none =>
      apply endsNormally_bind
      intro value
      split
      · exact endsNormally_execute n onTrue keeps
      · exact endsNormally_pure
  | n + 1, .conditional _ onTrue (some onFalse) =>
      apply endsNormally_bind
      intro value
      split
      · exact endsNormally_execute n onTrue keeps.1
      · exact endsNormally_execute n onFalse keeps.2
  | n + 1, .whileLoop condition body => exact endsNormally_loop n condition body keeps
  | n + 1, .funDecl _ =>
      exact endsNormally_bind fun _ => endsNormally_bind fun _ =>
        endsNormally_bind fun _ => endsNormally_pure
  | n + 1, .returning .. => exact keeps.elim
  | n + 1, .classDecl .. =>
      exact endsNormally_bind fun _ => endsNormally_bind fun _ => endsNormally_pure

theorem endsNormally_loop (allowance : Nat) (condition : Expr Reference) (body : Stmt Reference)
    (keeps : body.KeepsReturns) : EndsNormally (loop distances allowance condition body) := by
  match allowance with
  | 0 => exact endsNormally_throw _
  | n + 1 =>
      apply endsNormally_bind
      intro value
      split
      · exact (endsNormally_execute n body keeps).bind (endsNormally_loop n condition body keeps)
      · exact endsNormally_pure

theorem endsNormally_executeAll (allowance : Nat) (stmts : List (Stmt Reference))
    (keep : Stmt.AllKeepReturns stmts) : EndsNormally (executeAll distances allowance stmts) := by
  match allowance, stmts with
  | 0, _ => exact endsNormally_throw _
  | n + 1, [] => exact endsNormally_pure
  | n + 1, first :: rest =>
      exact (endsNormally_execute n first keep.1).bind (endsNormally_executeAll n rest keep.2)

end

end

/-- Runs a program and does something with every value that a statement of the top
level returns. -/
def interpretWith (onReturn : Value → Execution Unit) (distances : Distances)
    (allowance : Nat) : List (Stmt Reference) → Execution Unit
  | [] => pure ()
  | first :: rest => do
    match ← execute distances allowance first with
    | .normal => pure ()
    | .returned value => onReturn value
    interpretWith onReturn distances allowance rest

/-- If all statements of a program end normally, it makes no difference what is done
with returned values. -/
theorem interpretWith_eq {distances : Distances} {allowance : Nat}
    {program : List (Stmt Reference)}
    (normal : ∀ stmt ∈ program, EndsNormally (execute distances allowance stmt))
    (onReturn : Value → Execution Unit) :
    interpretWith onReturn distances allowance program = interpret distances allowance program := by
  induction program with
  | nil => rfl
  | cons first rest ih =>
      obtain ⟨normal, others⟩ := List.forall_mem_cons.1 normal
      funext machine
      show EStateM.bind _ _ machine = EStateM.bind _ _ machine
      rw [EStateM.bind, EStateM.bind]
      cases ran : execute distances allowance first machine with
      | ok completion later =>
          have same : completion = .normal := (normal machine).finished ran
          rw [same, ← ih others]
      | error interrupt later => rfl

/-! ## The statements of one call -/

namespace Task

/-- Whether statements are run for themselves, and not expressions. -/
def runsStatements : Task → Bool
  | execute _ | loop .. | executeAll _ => true
  | _ => false

end Task

namespace Moment

variable {distances : Distances}

/-- The first moment directly asks for the second one, and both run statements of one
call. -/
structure AsksInCall (distances : Distances) (first second : Moment) : Prop where
  asks : Asks distances first second
  asker : first.task.runsStatements = true
  asked : second.task.runsStatements = true

/-- The first moment asks for the second one, directly or in more steps, without
leaving the call in which it runs. -/
def ReachesInCall (distances : Distances) : Moment → Moment → Prop :=
  Relation.ReflTransGen (AsksInCall distances)

/-- The statements that a moment runs end with a completion on a machine. -/
def Completes (distances : Distances) (moment : Moment) (completion : Completion)
    (later : Machine) : Prop :=
  match moment.task with
  | .execute stmt =>
    Lox.execute distances moment.allowance stmt moment.machine = .ok completion later
  | .loop condition body =>
    Lox.loop distances moment.allowance condition body moment.machine = .ok completion later
  | .executeAll stmts =>
    Lox.executeAll distances moment.allowance stmts moment.machine = .ok completion later
  | _ => False

variable {first second third asker : Moment} {value : Value} {later : Machine}

/-- Whatever is asked for in a call and returns makes the moment that asks for it
return the same value.  Behind it nothing happens but that frames are left. -/
theorem AsksInCall.completes (asks : AsksInCall distances first second)
    (returned : second.Completes distances (.returned value) later) :
    ∃ frame, first.Completes distances (.returned value) { later with current := frame } := by
  obtain ⟨asks, asker, asked⟩ := asks
  cases asks with
  | @block n m body =>
      exact ⟨m.current, within_of_ok returned⟩
  | onTrue ran truthy =>
      refine ⟨later.current, (bind_of_ok ran).trans ?_⟩
      rw [if_pos truthy]
      exact returned
  | onFalse ran falsy =>
      refine ⟨later.current, (bind_of_ok ran).trans ?_⟩
      rw [if_neg (by rw [falsy]; exact Bool.false_ne_true)]
      exact returned
  | loop => exact ⟨later.current, returned⟩
  | round ran truthy =>
      refine ⟨later.current, (bind_of_ok ran).trans ?_⟩
      rw [if_pos truthy]
      exact bind_of_ok returned
  | again ran truthy ran' =>
      refine ⟨later.current, (bind_of_ok ran).trans ?_⟩
      rw [if_pos truthy]
      exact (bind_of_ok ran').trans returned
  | firstStmt => exact ⟨later.current, bind_of_ok returned⟩
  | otherStmts ran => exact ⟨later.current, (bind_of_ok ran).trans returned⟩
  | body => cases asker
  | _ => cases asked

/-- A return goes through everything that is left of its call. -/
theorem ReachesInCall.completes (reaches : ReachesInCall distances first second)
    (returned : second.Completes distances (.returned value) later) :
    ∃ frame, first.Completes distances (.returned value) { later with current := frame } := by
  induction reaches using Relation.ReflTransGen.head_induction_on with
  | refl => exact ⟨later.current, returned⟩
  | head asks _ ih =>
      obtain ⟨_, returned⟩ := ih
      obtain ⟨frame, returned⟩ := asks.completes returned
      exact ⟨frame, returned⟩

/-- What else is asked for in a call by a moment that asks for one that returns has
ended normally before that one starts. -/
theorem AsksInCall.eq_or_completes (asks : AsksInCall distances asker second)
    (asks' : AsksInCall distances asker third)
    (returned : second.Completes distances (.returned value) later) :
    third = second ∨ third.Completes distances .normal second.machine := by
  obtain ⟨asks, isAsker, asked⟩ := asks
  obtain ⟨asks', _, asked'⟩ := asks'
  cases asks with
  | block =>
      cases asks'
      exact .inl rfl
  | onTrue ran truthy =>
      cases asks' with
      | condition => cases asked'
      | onTrue ran' =>
          cases ran.symm.trans ran'
          exact .inl rfl
      | onFalse ran' falsy =>
          cases ran.symm.trans ran'
          cases truthy.symm.trans falsy
  | onFalse ran falsy =>
      cases asks' with
      | condition => cases asked'
      | onTrue ran' truthy =>
          cases ran.symm.trans ran'
          cases truthy.symm.trans falsy
      | onFalse ran' =>
          cases ran.symm.trans ran'
          exact .inl rfl
  | loop =>
      cases asks'
      exact .inl rfl
  | round ran =>
      cases asks' with
      | guard => cases asked'
      | round ran' =>
          cases ran.symm.trans ran'
          exact .inl rfl
      | again ran' _ normal =>
          cases ran.symm.trans ran'
          cases normal.symm.trans returned
  | again ran _ normal =>
      cases asks' with
      | guard => cases asked'
      | round ran' =>
          cases ran.symm.trans ran'
          exact .inr normal
      | again ran' _ normal' =>
          cases ran.symm.trans ran'
          cases normal.symm.trans normal'
          exact .inl rfl
  | firstStmt =>
      cases asks' with
      | firstStmt => exact .inl rfl
      | otherStmts normal => cases normal.symm.trans returned
  | otherStmts normal =>
      cases asks' with
      | firstStmt => exact .inr normal
      | otherStmts normal' =>
          cases normal.symm.trans normal'
          exact .inl rfl
  | body => cases isAsker
  | _ => cases asked

/-- A return anywhere in a call ends the call, which gives its value and goes back to
the frame of the caller. -/
theorem ReachesInCall.call {n : Nat} {closure : Closure} {paren : Token}
    {arguments : List Value} {machine : Machine}
    (arity : arguments.length = closure.declaration.parameters.length)
    (reaches : ReachesInCall distances ⟨n, .executeAll closure.declaration.body,
      machine.entering closure.home
        (argumentBindings closure.declaration.parameters arguments)⟩ second)
    (returned : second.Completes distances (.returned value) later) :
    Lox.call distances (n + 1) (.function closure) paren arguments machine =
      .ok value { later with current := machine.current } := by
  obtain ⟨frame, inside⟩ := reaches.completes returned
  have checked : checkArity paren closure.declaration.parameters.length arguments.length machine =
      .ok () machine := by
    rw [checkArity, if_pos arity]
    rfl
  have left : within machine.frames.nextId (executeAll distances n closure.declaration.body)
      { machine with
        frames := machine.frames.push (some closure.home)
          (argumentBindings closure.declaration.parameters arguments) } =
      .ok (.returned value)
        { ({ later with current := frame } : Machine) with current := machine.current } :=
    within_of_ok inside
  exact (bind_of_ok checked).trans (bind_of_ok left)

end Moment

/-! ## Calls that are followed -/

namespace Moment

/-- What a moment directly asks for in its call, the statements in the order in which
they are run. -/
def askedInCall (distances : Distances) : Moment → List Moment
  | ⟨n + 1, .execute (.block body), m⟩ => [⟨n, .executeAll body, m.entering m.current {}⟩]
  | ⟨n + 1, .execute (.conditional condition onTrue onFalse), m⟩ =>
    behind (evaluate distances n condition m) fun value m' =>
      (if value.isTruthy then [onTrue] else onFalse.toList).map (⟨n, .execute ·, m'⟩)
  | ⟨n + 1, .execute (.whileLoop condition body), m⟩ => [⟨n, .loop condition body, m⟩]
  | ⟨n + 1, .loop condition body, m⟩ =>
    behind (evaluate distances n condition m) fun value m' =>
      if value.isTruthy then
        ⟨n, .execute body, m'⟩ :: behind (execute distances n body m') fun completion m'' =>
          match completion with
          | .normal => [⟨n, .loop condition body, m''⟩]
          | .returned _ => []
      else []
  | ⟨n + 1, .executeAll (first :: rest), m⟩ =>
    ⟨n, .execute first, m⟩ :: behind (execute distances n first m) fun completion m' =>
      match completion with
      | .normal => [⟨n, .executeAll rest, m'⟩]
      | .returned _ => []
  | _ => []

theorem asksInCall_of_mem (asked : second ∈ first.askedInCall distances) :
    AsksInCall distances first second := by
  unfold askedInCall at asked
  split at asked
  · rw [List.mem_singleton.1 asked]
    exact ⟨.block, rfl, rfl⟩
  · obtain ⟨_, _, ran, asked⟩ := exists_of_mem_behind asked
    obtain ⟨_, chosen, rfl⟩ := List.mem_map.1 asked
    split at chosen
    · next truthy =>
        rw [List.mem_singleton.1 chosen]
        exact ⟨.onTrue ran truthy, rfl, rfl⟩
    · next falsy =>
        rw [Option.mem_toList.1 chosen]
        exact ⟨.onFalse ran (Bool.eq_false_iff.2 falsy), rfl, rfl⟩
  · rw [List.mem_singleton.1 asked]
    exact ⟨.loop, rfl, rfl⟩
  · obtain ⟨_, _, ran, asked⟩ := exists_of_mem_behind asked
    split at asked
    · next truthy =>
        rcases List.mem_cons.1 asked with rfl | asked
        · exact ⟨.round ran truthy, rfl, rfl⟩
        · obtain ⟨_, _, ran', asked⟩ := exists_of_mem_behind asked
          split at asked
          · rw [List.mem_singleton.1 asked]
            exact ⟨.again ran truthy ran', rfl, rfl⟩
          · cases asked
    · cases asked
  · rcases List.mem_cons.1 asked with rfl | asked
    · exact ⟨.firstStmt, rfl, rfl⟩
    · obtain ⟨_, _, ran, asked⟩ := exists_of_mem_behind asked
      split at asked
      · rw [List.mem_singleton.1 asked]
        exact ⟨.otherStmts ran, rfl, rfl⟩
      · cases asked
  · cases asked

/-- The moment at which a choice of statements of a call arrives. -/
def follow (distances : Distances) : List Nat → Moment → Option Moment
  | [], moment => some moment
  | choice :: choices, moment =>
    (moment.askedInCall distances)[choice]?.bind (follow distances choices)

theorem reachesInCall_of_follow {choices : List Nat}
    (arrives : follow distances choices first = some second) :
    ReachesInCall distances first second := by
  induction choices generalizing first with
  | nil =>
      cases arrives
      exact .refl
  | cons choice choices ih =>
      obtain ⟨next, chosen, arrives⟩ := Option.bind_eq_some_iff.1 arrives
      exact .head (asksInCall_of_mem (List.mem_of_getElem? chosen)) (ih arrives)

/-- What a moment returns, with the machine that it leaves, if it runs a statement that
returns. -/
def returned? (distances : Distances) (moment : Moment) : Option (Value × Machine) :=
  match moment.task with
  | .execute stmt =>
    match execute distances moment.allowance stmt moment.machine with
    | .ok (.returned value) later => some (value, later)
    | _ => none
  | _ => none

theorem completes_of_returned? {moment : Moment}
    (gives : moment.returned? distances = some (value, later)) :
    moment.Completes distances (.returned value) later := by
  unfold returned? at gives
  unfold Completes
  split at gives
  · next about =>
      split at gives
      · next ran =>
          cases gives
          rw [about]
          exact ran
      · cases gives
  · cases gives

end Moment

/-- Returns never leak to the top level.  If no return outside a function is reported
for a program, then no execution of a statement of its top level ends as returned, so
that it makes no difference what is done with returned values.  And within a call, a
return is the end: the call gives its value on the machine that it left, and of what
is asked for beside it in the call everything has ended before. -/
theorem returns_stay_in_calls {known : Distances} {program : List (Stmt Reference)}
    (clean : ∀ place, .scoping .returnOutsideFunction place ∉ (analyse known program).2)
    (distances : Distances) (allowance : Nat) :
    (∀ stmt ∈ program, ∀ machine value later,
      execute distances allowance stmt machine ≠ .ok (.returned value) later) ∧
    (∀ onReturn, interpretWith onReturn distances allowance program =
      interpret distances allowance program) ∧
    (∀ closure paren (arguments : List Value) machine inner value later,
      arguments.length = closure.declaration.parameters.length →
      Moment.ReachesInCall distances ⟨allowance, .executeAll closure.declaration.body,
        machine.entering closure.home
          (argumentBindings closure.declaration.parameters arguments)⟩ inner →
      inner.Completes distances (.returned value) later →
      call distances (allowance + 1) (.function closure) paren arguments machine =
        .ok value { later with current := machine.current }) ∧
    ∀ asker second third value later, Moment.AsksInCall distances asker second →
      Moment.AsksInCall distances asker third →
      second.Completes distances (.returned value) later →
      third = second ∨ third.Completes distances .normal second.machine := by
  have outside : ({ distances := known } : Analysis).inFunction = none := rfl
  have keep : Stmt.AllKeepReturns program := Analysis.keepsReturns_stmts outside program clean
  have normal (stmt : Stmt Reference) (member : stmt ∈ program) :
      EndsNormally (execute distances allowance stmt) :=
    endsNormally_execute allowance stmt (keep.of_mem member)
  refine ⟨fun stmt member machine value later ran => ?_, interpretWith_eq normal,
    fun _ _ _ _ _ _ _ arity reaches returned => reaches.call arity returned,
    fun _ _ _ _ _ asks asks' returned => asks.eq_or_completes asks' returned⟩
  cases (normal stmt member machine).finished ran

/-- A function that prints and then returns out of a loop, called at the top level. -/
def loopReturning : List (Stmt Reference) :=
  Session.start.program .script
    "fun f(n)\x7bprint n;while(true)\x7bif(n)return n;\x7d\x7dprint f(true);"

/-- The machine on which a call with the argument `true` starts. -/
def calledWithTrue (parameters : List Token) : Machine :=
  Session.start.machine.entering Machine.globals (argumentBindings parameters [.boolean true])

/-- The first statement of the function that a program declares ends normally, and behind
it a return is reached through a loop, its block and a conditional. -/
def returnsThroughLoop (distances : Distances) : List (Stmt Reference) → Bool
  | [.funDecl (.mk _ [parameter] (first :: rest)), .print (.call _ _ _)] =>
    match execute distances 99 first (calledWithTrue [parameter]) with
    | .ok .normal later =>
      ((Moment.follow distances [0, 0, 0, 0, 0, 0] ⟨99, .executeAll rest, later⟩).bind
        (Moment.returned? distances)).any (·.1.display == "true")
    | _ => false
  | _ => false

theorem loopReturning_stays :
    (analyse {} loopReturning).2 = [] ∧
    (∀ stmt ∈ loopReturning, ∀ machine value later,
      execute (analyse {} loopReturning).1 100 stmt machine ≠ .ok (.returned value) later) ∧
    ∃ (closure : Closure) (paren : Token) (machine : Machine) (before rest inner : Moment)
        (value : Value) (later : Machine),
      Moment.AsksInCall (analyse {} loopReturning).1 ⟨100, .executeAll closure.declaration.body,
        machine.entering closure.home
          (argumentBindings closure.declaration.parameters [.boolean true])⟩ before ∧
      Moment.AsksInCall (analyse {} loopReturning).1 ⟨100, .executeAll closure.declaration.body,
        machine.entering closure.home
          (argumentBindings closure.declaration.parameters [.boolean true])⟩ rest ∧
      rest.ReachesInCall (analyse {} loopReturning).1 inner ∧
      inner.Completes (analyse {} loopReturning).1 (.returned value) later ∧ value.display = "true" ∧
      before.Completes (analyse {} loopReturning).1 .normal rest.machine ∧
      call (analyse {} loopReturning).1 101 (.function closure) paren [.boolean true] machine =
        .ok value { later with current := machine.current } := by
  have quiet : (analyse {} loopReturning).2 = [] := by decide +kernel
  obtain ⟨top, -, gives, beside⟩ :=
    returns_stay_in_calls (fun place => quiet ▸ List.not_mem_nil) (analyse {} loopReturning).1 100
  refine ⟨quiet, top, ?_⟩
  have found : returnsThroughLoop (analyse {} loopReturning).1 loopReturning = true := by
    decide +kernel
  generalize (analyse {} loopReturning).1 = distances at *
  unfold returnsThroughLoop at found
  split at found
  · next name parameter first rest _ paren _ _ =>
      split at found
      · next later ran =>
          obtain ⟨⟨value, last⟩, arrives, shown⟩ := (Option.any_eq_true _ _).1 found
          obtain ⟨inner, arrives, returned⟩ := Option.bind_eq_some_iff.1 arrives
          have reaches := Moment.reachesInCall_of_follow arrives
          have completes := Moment.completes_of_returned? returned
          have before : Moment.AsksInCall distances
              ⟨100, .executeAll (first :: rest), calledWithTrue [parameter]⟩
              ⟨99, .execute first, calledWithTrue [parameter]⟩ := ⟨.firstStmt, rfl, rfl⟩
          have behind : Moment.AsksInCall distances
              ⟨100, .executeAll (first :: rest), calledWithTrue [parameter]⟩
              ⟨99, .executeAll rest, later⟩ := ⟨.otherStmts ran, rfl, rfl⟩
          obtain ⟨_, leaves⟩ := reaches.completes completes
          have ended := (beside _ _ _ _ _ behind before leaves).resolve_left (by simp)
          have called := gives ⟨0, .mk name [parameter] (first :: rest), Machine.globals⟩ paren
            [.boolean true] Session.start.machine inner value last rfl (.head behind reaches)
            completes
          exact ⟨⟨0, .mk name [parameter] (first :: rest), Machine.globals⟩, paren,
            Session.start.machine, _, _, inner, value, last, before, behind, reaches, completes,
            beq_iff_eq.1 shown, ended, called⟩
      · cases found
  · cases found

end Lox
