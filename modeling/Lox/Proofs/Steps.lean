/-
# The steps of a run

A moment does little of its own: it may enter or leave a frame, bind a name, give a
variable or a field a value, make an instance, read the clock or print
(`Moment.Does`).  All else is done at the moments that it asks for.

So the machine that a run leaves comes of the one on which it starts by steps of the
moments that it reaches (`Moment.flows`), and so it does of the machine that any
moment leaves that is asked for on the way (`Moment.Asks.flows`).  What every step of
a run preserves is thus preserved by the run, from any point of it to its end.

Nothing is supposed of the trees that are run.
-/

import Lox.Proofs.FailingConsole
import Lox.Proofs.Moments

namespace Lox

open Execution

namespace Moment

variable {distances : Distances}

/-- The machine that the task of a moment leaves, however it ends. -/
def after (distances : Distances) (moment : Moment) : Machine :=
  match moment.task with
  | .evaluate expr => machineOf (evaluate distances moment.allowance expr moment.machine)
  | .evaluateAll exprs => machineOf (evaluateAll distances moment.allowance exprs moment.machine)
  | .call callee paren arguments =>
    machineOf (Lox.call distances moment.allowance callee paren arguments moment.machine)
  | .execute stmt => machineOf (execute distances moment.allowance stmt moment.machine)
  | .loop condition body =>
    machineOf (Lox.loop distances moment.allowance condition body moment.machine)
  | .executeAll stmts => machineOf (executeAll distances moment.allowance stmts moment.machine)

/-- What a moment itself does to the machine, apart from what is done at the moments
that it asks for. -/
inductive Does (distances : Distances) : Moment → Machine → Machine → Prop where
  | assign {n : Nat} {m m' m'' : Machine} {reference : Reference} {name : Token}
      {expr : Expr Reference} {value : Value} (ran : evaluate distances n expr m = .ok value m')
      (assigned : Execution.assign distances[reference]? name value m' = .ok () m'') :
      Does distances ⟨n + 1, .evaluate (.assign reference name expr), m⟩ m' m''
  | property {n : Nat} {m m' m'' : Machine} {object : Expr Reference} {name : Token}
      {owner : Instance} {value : Value}
      (ran : evaluate distances n object m = .ok (.instanceValue owner) m')
      (read : Execution.property owner name m' = .ok value m'') :
      Does distances ⟨n + 1, .evaluate (.get object name), m⟩ m' m''
  | setField {n : Nat} {m m' m'' m''' : Machine} {object expr : Expr Reference} {name : Token}
      {owner : Instance} {value : Value}
      (ran : evaluate distances n object m = .ok (.instanceValue owner) m')
      (ran' : evaluate distances n expr m' = .ok value m'')
      (stored : Execution.setField owner name.lexeme value m'' = .ok () m''') :
      Does distances ⟨n + 1, .evaluate (.set object name expr), m⟩ m'' m'''
  | enter {n : Nat} {m : Machine} {closure : Closure} {paren : Token} {arguments : List Value}
      (arity : arguments.length = closure.declaration.parameters.length) :
      Does distances ⟨n + 1, .call (.function closure) paren arguments, m⟩ m
        (m.entering closure.home (argumentBindings closure.declaration.parameters arguments))
  | leave {n : Nat} {m later : Machine} {closure : Closure} {paren : Token}
      {arguments : List Value}
      (left : later = machineOf (executeAll distances n closure.declaration.body
        (m.entering closure.home (argumentBindings closure.declaration.parameters arguments)))) :
      Does distances ⟨n + 1, .call (.function closure) paren arguments, m⟩ later
        { later with current := m.current }
  | clock {n : Nat} {m m' : Machine} {paren : Token} {arguments : List Value} {value : Value}
      (read : readClock m = .ok value m') :
      Does distances ⟨n + 1, .call (.native .clock) paren arguments, m⟩ m m'
  | newInstance {n : Nat} {m m' : Machine} {cls : Class} {paren : Token}
      {arguments : List Value} {value : Value}
      (made : Execution.newInstance cls m = .ok value m') :
      Does distances ⟨n + 1, .call (.classValue cls) paren arguments, m⟩ m m'
  | print {n : Nat} {m m' : Machine} {expr : Expr Reference} {value : Value}
      (ran : evaluate distances n expr m = .ok value m') :
      Does distances ⟨n + 1, .execute (.print expr), m⟩ m' (machineOf (Execution.print value m'))
  | declare {n : Nat} {m m' : Machine} {name : Token}
      (defined : define name.lexeme .nil m = .ok () m') :
      Does distances ⟨n + 1, .execute (.varDecl name none), m⟩ m m'
  | initial {n : Nat} {m m' m'' : Machine} {name : Token} {initializer : Expr Reference}
      {value : Value} (ran : evaluate distances n initializer m = .ok value m')
      (defined : define name.lexeme value m' = .ok () m'') :
      Does distances ⟨n + 1, .execute (.varDecl name (some initializer)), m⟩ m' m''
  | enterBlock {n : Nat} {m : Machine} {body : List (Stmt Reference)} :
      Does distances ⟨n + 1, .execute (.block body), m⟩ m (m.entering m.current {})
  | leaveBlock {n : Nat} {m later : Machine} {body : List (Stmt Reference)}
      (left : later = machineOf (executeAll distances n body (m.entering m.current {}))) :
      Does distances ⟨n + 1, .execute (.block body), m⟩ later { later with current := m.current }
  | function {n : Nat} {m m' m'' : Machine} {declaration : FunctionDecl Reference}
      {value : Value} (made : newClosure declaration m.current m = .ok value m')
      (defined : define declaration.name.lexeme value m' = .ok () m'') :
      Does distances ⟨n + 1, .execute (.funDecl declaration), m⟩ m m''
  | classValue {n : Nat} {m m' m'' : Machine} {name : Token}
      {methods : List (FunctionDecl Reference)} {value : Value}
      (made : newClass name.lexeme methods m = .ok value m')
      (defined : define name.lexeme value m' = .ok () m'') :
      Does distances ⟨n + 1, .execute (.classDecl name methods), m⟩ m m''

/-- The later machine comes of the earlier one by steps of moments that this one
reaches. -/
def Flows (distances : Distances) (moment : Moment) : Machine → Machine → Prop :=
  Relation.ReflTransGen fun earlier later =>
    ∃ reached, moment.Reaches distances reached ∧ reached.Does distances earlier later

theorem Does.flows {moment : Moment} {earlier later : Machine}
    (does : moment.Does distances earlier later) : moment.Flows distances earlier later :=
  .single ⟨moment, .refl, does⟩

/-- What comes of the steps of a moment comes of those of the moment that asks for it. -/
theorem Flows.ask {first second : Moment} {earlier later : Machine}
    (flows : second.Flows distances earlier later) (asks : Asks distances first second) :
    first.Flows distances earlier later :=
  Relation.ReflTransGen.mono
    (fun _ _ ⟨reached, reaches, does⟩ => ⟨reached, .head asks reaches, does⟩) _ _ flows

end Moment

open Moment

/-- What holds of the machine that a computation leaves, and is kept by the one behind
it, holds of the machine that both leave. -/
theorem Execution.machineOf_bind {α β : Type} {computation : Execution α}
    {next : α → Execution β} {machine : Machine} (holds : Machine → Prop)
    (before : holds (machineOf (computation machine)))
    (behind : ∀ value later, computation machine = .ok value later → holds later →
      holds (machineOf (next value later))) :
    holds (machineOf ((computation >>= next) machine)) := by
  show holds (machineOf (EStateM.bind computation next machine))
  rw [EStateM.bind]
  cases ran : computation machine with
  | ok value later =>
      rw [ran] at before
      exact behind value later ran before
  | error interrupt later =>
      rw [ran] at before
      exact before

/-- A computation behind one that is known to have finished. -/
theorem Execution.bind_of_ok {α β : Type} {computation : Execution α} {next : α → Execution β}
    {machine later : Machine} {value : α} (ran : computation machine = .ok value later) :
    (computation >>= next) machine = next value later := by
  show EStateM.bind computation next machine = _
  rw [EStateM.bind, ran]

/-- From an earlier machine, the steps of a moment lead to the one that a computation
leaves. -/
def Moment.Leads {α : Type} (distances : Distances) (moment : Moment) (earlier : Machine)
    (computation : Execution α) (machine : Machine) : Prop :=
  moment.Flows distances earlier (machineOf (computation machine))

namespace Moment.Leads

variable {α β : Type} {distances : Distances} {moment : Moment} {earlier machine m' : Machine}
  {computation : Execution α}

theorem ends : moment.Leads distances (machineOf (computation machine)) computation machine :=
  Relation.ReflTransGen.refl

/-- A computation that leaves the machine as it is. -/
theorem of_unchanged (unchanged : Ensures computation machine (fun _ later => later = machine)
    fun _ later => later = machine) : moment.Leads distances machine computation machine := by
  have same : machineOf (computation machine) = machine := by
    cases ran : computation machine with
    | ok value later => exact unchanged.finished ran
    | error interrupt later => exact unchanged.stopped ran
  unfold Leads
  rw [same]
  exact .refl

theorem pure (value : α) : moment.Leads distances machine (Pure.pure value) machine :=
  of_unchanged rfl

theorem fail (place : Token) (fault : RuntimeFault) :
    moment.Leads distances machine (Execution.fail place fault : Execution α) machine :=
  of_unchanged rfl

theorem of_does (does : moment.Does distances machine (machineOf (computation machine))) :
    moment.Leads distances machine computation machine :=
  does.flows

/-- A computation behind another one, that goes on from where that one ends. -/
theorem bind {next : α → Execution β} (before : moment.Leads distances earlier computation machine)
    (behind : ∀ value m', computation machine = .ok value m' →
      moment.Leads distances m' (next value) m') :
    moment.Leads distances earlier (computation >>= next) machine :=
  machineOf_bind (moment.Flows distances earlier) before fun value m' ran flows =>
    flows.trans (behind value m' ran)

/-- A computation behind one that is known to have finished. -/
theorem bind_ok {next : α → Execution β} {value : α} (ran : computation machine = .ok value m')
    (behind : moment.Leads distances earlier (next value) m') :
    moment.Leads distances earlier (computation >>= next) machine := by
  unfold Leads
  rw [bind_of_ok ran]
  exact behind

/-- A computation that does a step of the moment, or is stopped where it starts. -/
theorem of_ok (does : ∀ value later, computation machine = .ok value later →
      moment.Does distances machine later)
    (unchanged : ∀ interrupt later, computation machine = .error interrupt later →
      later = machine) : moment.Leads distances machine computation machine := by
  unfold Leads
  cases ran : computation machine with
  | ok value later => exact (does value later ran).flows
  | error interrupt later =>
      rw [unchanged interrupt later ran]
      exact .refl

theorem require (place : Token) (result : Except RuntimeFault α) :
    moment.Leads distances machine (Execution.require place result) machine := by
  cases result with
  | ok value => exact pure value
  | error fault => exact fail place fault

theorem checkArity (place : Token) (expected given : Nat) :
    moment.Leads distances machine (Execution.checkArity place expected given) machine := by
  unfold Execution.checkArity
  split
  · exact pure ()
  · exact fail _ _

theorem lookUp (distance : Option Nat) (name : Token) :
    moment.Leads distances machine (Execution.lookUp distance name) machine := by
  apply of_unchanged
  apply ensures_bind
  · rintro _ _ ⟨⟩
    dsimp only
    split <;> rfl
  · rintro _ _ ⟨⟩

end Moment.Leads

/-- What is stopped in an assignment is stopped before anything is assigned. -/
theorem Execution.eq_of_assign_error {distance : Option Nat} {name : Token} {value : Value}
    {machine later : Machine} {interrupt : Interrupt}
    (stopped : assign distance name value machine = .error interrupt later) : later = machine := by
  have whole : Ensures (assign distance name value) machine (fun _ _ => True) fun _ later =>
      later = machine := by
    apply ensures_bind
    · rintro _ _ ⟨⟩
      dsimp only
      split
      · trivial
      · rfl
    · rintro _ _ ⟨⟩
  exact whole.stopped stopped

theorem Execution.eq_of_property_error {object : Instance} {name : Token}
    {machine later : Machine} {interrupt : Interrupt}
    (stopped : property object name machine = .error interrupt later) : later = machine := by
  have whole : Ensures (property object name) machine (fun _ _ => True) fun _ later =>
      later = machine := by
    apply ensures_bind
    · rintro _ _ ⟨⟩
      split
      · trivial
      · split
        · trivial
        · rfl
    · rintro _ _ ⟨⟩
  exact whole.stopped stopped

/-- What runs in another frame leaves the machine in the frame before it. -/
theorem Execution.machineOf_within {α : Type} (frame : FrameId) (computation : Execution α)
    (machine : Machine) : machineOf (within frame computation machine) =
      { machineOf (computation { machine with current := frame }) with
        current := machine.current } := by
  simp only [within]
  cases computation { machine with current := frame } <;> rfl

namespace Moment

variable {distances : Distances}

/-- If all that has the allowance of a moment comes of steps, then the machine that the
moment leaves leads on to the one that is left by the moment that asks for it. -/
theorem Asks.flows_of {first second : Moment} (asks : Asks distances first second)
    (runs : ∀ task m, Flows distances ⟨second.allowance, task, m⟩ m
      (after distances ⟨second.allowance, task, m⟩)) :
    Flows distances first (second.after distances) (first.after distances) := by
  cases asks with
  | inner | loop => exact .refl
  | @operand n m operator operand =>
      show Leads distances _ _ (evaluate distances (n + 1) (.unary operator operand)) m
      exact Leads.ends.bind fun _ _ _ => .require _ _
  | @left n m left right operator =>
      show Leads distances _ _ (evaluate distances (n + 1) (.binary left operator right)) m
      refine Leads.ends.bind fun value m' ran => ?_
      exact Leads.bind ((runs (.evaluate right) m').ask (.right ran)) fun _ _ _ => .require _ _
  | @right n m m' left right operator value ran =>
      show Leads distances _ _ (evaluate distances (n + 1) (.binary left operator right)) m
      exact .bind_ok ran (Leads.ends.bind fun _ _ _ => .require _ _)
  | @first n m left right operator =>
      show Leads distances _ _ (evaluate distances (n + 1) (.logical left operator right)) m
      refine Leads.ends.bind fun value m' ran => ?_
      split
      · exact .pure value
      · next goesOn =>
          exact (runs (.evaluate right) m').ask (.second ran (by simpa using goesOn))
  | @second n m m' left right operator value ran goesOn =>
      show Leads distances _ _ (evaluate distances (n + 1) (.logical left operator right)) m
      refine .bind_ok ran ?_
      rw [if_neg (by rw [goesOn]; exact Bool.false_ne_true)]
      exact .ends
  | @value n m reference name expr =>
      show Leads distances _ _ (evaluate distances (n + 1) (.assign reference name expr)) m
      refine Leads.ends.bind fun value m' ran => ?_
      refine Leads.bind ?_ fun _ _ _ => .pure _
      exact .of_ok (fun _ _ assigned => .assign ran assigned) fun _ _ => eq_of_assign_error
  | @callee n m callee paren arguments =>
      show Leads distances _ _ (evaluate distances (n + 1) (.call callee paren arguments)) m
      refine Leads.ends.bind fun value m' ran => ?_
      refine Leads.bind ((runs (.evaluateAll arguments) m').ask (.arguments ran))
        fun values m'' ran' => ?_
      exact (runs (.call value paren values) m'').ask (.call ran ran')
  | @arguments n m m' callee paren arguments value ran =>
      show Leads distances _ _ (evaluate distances (n + 1) (.call callee paren arguments)) m
      refine .bind_ok ran (Leads.ends.bind fun values m'' ran' => ?_)
      exact (runs (.call value paren values) m'').ask (.call ran ran')
  | @call n m m' m'' callee paren arguments value values ran ran' =>
      show Leads distances _ _ (evaluate distances (n + 1) (.call callee paren arguments)) m
      exact .bind_ok ran (.bind_ok ran' .ends)
  | @object n m object name =>
      show Leads distances _ _ (evaluate distances (n + 1) (.get object name)) m
      refine Leads.ends.bind fun value m' ran => ?_
      split
      · exact .of_ok (fun _ _ read => .property ran read) fun _ _ => eq_of_property_error
      · exact .fail _ _
  | @owner n m object expr name =>
      show Leads distances _ _ (evaluate distances (n + 1) (.set object name expr)) m
      refine Leads.ends.bind fun value m' ran => ?_
      split
      · next owner =>
          refine Leads.bind ((runs (.evaluate expr) m').ask (.stored ran)) fun value m'' ran' => ?_
          exact Leads.bind (.of_does (.setField ran ran' rfl)) fun _ _ _ => .pure _
      · exact .fail _ _
  | @stored n m m' object expr name owner ran =>
      show Leads distances _ _ (evaluate distances (n + 1) (.set object name expr)) m
      refine .bind_ok ran (Leads.ends.bind fun value m'' ran' => ?_)
      exact Leads.bind (.of_does (.setField ran ran' rfl)) fun _ _ _ => .pure _
  | @firstExpr n m first rest =>
      show Leads distances _ _ (evaluateAll distances (n + 1) (first :: rest)) m
      refine Leads.ends.bind fun value m' ran => ?_
      exact Leads.bind ((runs (.evaluateAll rest) m').ask (.otherExprs ran)) fun _ _ _ => .pure _
  | @otherExprs n m m' first rest value ran =>
      show Leads distances _ _ (evaluateAll distances (n + 1) (first :: rest)) m
      exact .bind_ok ran (Leads.ends.bind fun _ _ _ => .pure _)
  | @body n m closure paren arguments arity =>
      show Leads distances _ _ (Lox.call distances (n + 1) (.function closure) paren arguments) m
      have checked : Execution.checkArity paren closure.declaration.parameters.length
          arguments.length m = .ok () m := by
        rw [Execution.checkArity, if_pos arity]
        rfl
      refine .bind_ok checked (.bind_ok rfl (Leads.bind ?_ fun completion _ _ => ?_))
      · unfold Leads
        rw [machineOf_within]
        exact (Does.leave rfl).flows
      · cases completion <;> exact .pure _
  | @expression n m expr =>
      show Leads distances _ _ (execute distances (n + 1) (.expression expr)) m
      exact Leads.ends.bind fun _ _ _ => .pure _
  | @print n m expr =>
      show Leads distances _ _ (execute distances (n + 1) (.print expr)) m
      refine Leads.ends.bind fun value m' ran => ?_
      exact Leads.bind (.of_does (.print ran)) fun _ _ _ => .pure _
  | @initializer n m name initializer =>
      show Leads distances _ _ (execute distances (n + 1) (.varDecl name (some initializer))) m
      refine Leads.ends.bind fun value m' ran => ?_
      exact Leads.bind (.of_does (.initial ran rfl)) fun _ _ _ => .pure _
  | @block n m body =>
      show Leads distances _ _ (within m.frames.nextId (executeAll distances n body))
        { m with frames := m.frames.push (some m.current) {} }
      unfold Leads
      rw [machineOf_within]
      exact (Does.leaveBlock rfl).flows
  | @condition n m condition onTrue onFalse =>
      show Leads distances _ _ (execute distances (n + 1) (.conditional condition onTrue onFalse)) m
      refine Leads.ends.bind fun value m' ran => ?_
      split
      · next truthy => exact (runs (.execute onTrue) m').ask (.onTrue ran truthy)
      · next falsy =>
          cases onFalse with
          | none => exact .pure _
          | some onFalse =>
              exact (runs (.execute onFalse) m').ask (.onFalse ran (by simpa using falsy))
  | @onTrue n m m' condition onTrue onFalse value ran truthy =>
      show Leads distances _ _ (execute distances (n + 1) (.conditional condition onTrue onFalse)) m
      refine .bind_ok ran ?_
      rw [if_pos truthy]
      exact .ends
  | @onFalse n m m' condition onTrue onFalse value ran falsy =>
      show Leads distances _ _
        (execute distances (n + 1) (.conditional condition onTrue (some onFalse))) m
      refine .bind_ok ran ?_
      rw [if_neg (by rw [falsy]; exact Bool.false_ne_true)]
      exact .ends
  | @guard n m condition body =>
      show Leads distances _ _ (Lox.loop distances (n + 1) condition body) m
      refine Leads.ends.bind fun value m' ran => ?_
      split
      · next truthy =>
          refine Leads.bind ((runs (.execute body) m').ask (.round ran truthy))
            fun completion m'' ran' => ?_
          cases completion with
          | normal => exact (runs (.loop condition body) m'').ask (.again ran truthy ran')
          | returned value => exact .pure _
      · exact .pure _
  | @round n m m' condition body value ran truthy =>
      show Leads distances _ _ (Lox.loop distances (n + 1) condition body) m
      refine .bind_ok ran ?_
      rw [if_pos truthy]
      refine Leads.ends.bind fun completion m'' ran' => ?_
      cases completion with
      | normal => exact (runs (.loop condition body) m'').ask (.again ran truthy ran')
      | returned value => exact .pure _
  | @again n m m' m'' condition body value ran truthy ran' =>
      show Leads distances _ _ (Lox.loop distances (n + 1) condition body) m
      refine .bind_ok ran ?_
      rw [if_pos truthy]
      exact .bind_ok ran' .ends
  | @returned n m keyword expr =>
      show Leads distances _ _ (execute distances (n + 1) (.returning keyword (some expr))) m
      exact Leads.ends.bind fun _ _ _ => .pure _
  | @firstStmt n m first rest =>
      show Leads distances _ _ (executeAll distances (n + 1) (first :: rest)) m
      refine Leads.ends.bind fun completion m' ran => ?_
      cases completion with
      | normal => exact (runs (.executeAll rest) m').ask (.otherStmts ran)
      | returned value => exact .pure _
  | @otherStmts n m m' first rest ran =>
      show Leads distances _ _ (executeAll distances (n + 1) (first :: rest)) m
      exact .bind_ok ran .ends

/-- What a moment does comes of the steps of the moments that it reaches. -/
theorem flows (moment : Moment) :
    moment.Flows distances moment.machine (moment.after distances) := by
  obtain ⟨n, task, m⟩ := moment
  induction n generalizing task m with
  | zero => cases task <;> exact .refl
  | succ n runs =>
      have entered {task task' : Task} {m' : Machine}
          (asks : Asks distances ⟨n + 1, task, m⟩ ⟨n, task', m'⟩) :
          Flows distances ⟨n + 1, task, m⟩ m' (after distances ⟨n + 1, task, m⟩) :=
        ((runs task' m').ask asks).trans (asks.flows_of runs)
      have first {task task' : Task} (asks : Asks distances ⟨n + 1, task, m⟩ ⟨n, task', m⟩) :
          Flows distances ⟨n + 1, task, m⟩ m (after distances ⟨n + 1, task, m⟩) := entered asks
      cases task with
      | evaluate expr =>
          cases expr with
          | literal value => exact .refl
          | grouping inner => exact first .inner
          | unary operator operand => exact first .operand
          | binary left operator right => exact first .left
          | logical left operator right => exact first .first
          | «variable» reference name => exact Leads.lookUp _ name
          | assign reference name value => exact first .value
          | call callee paren arguments => exact first .callee
          | get object name => exact first .object
          | set object name value => exact first .owner
          | this reference keyword => exact Leads.lookUp _ keyword
      | evaluateAll exprs =>
          cases exprs with
          | nil => exact .refl
          | cons head rest => exact first .firstExpr
      | call callee paren arguments =>
          cases callee with
          | function closure =>
              by_cases arity : arguments.length = closure.declaration.parameters.length
              · exact .head ⟨_, .refl, .enter arity⟩ (entered (.body arity))
              · exact Leads.bind (.checkArity _ _ _) fun _ _ checked =>
                  absurd (of_checkArity checked).1 arity
          | native native =>
              refine Leads.bind (.checkArity _ _ _) fun _ m' checked => ?_
              rw [(of_checkArity checked).2]
              exact .of_does (.clock rfl)
          | classValue cls =>
              refine Leads.bind (.checkArity _ _ _) fun _ m' checked => ?_
              rw [(of_checkArity checked).2]
              exact .of_does (.newInstance rfl)
          | nil | boolean | number | string | instanceValue => exact .refl
      | execute stmt =>
          cases stmt with
          | expression expr => exact first .expression
          | print expr => exact first .print
          | varDecl name initializer =>
              cases initializer with
              | none => exact (Does.declare rfl).flows
              | some initializer => exact first .initializer
          | block body => exact .head ⟨_, .refl, .enterBlock⟩ (entered .block)
          | conditional condition onTrue onFalse => exact first .condition
          | whileLoop condition body => exact first .loop
          | funDecl declaration => exact (Does.function rfl rfl).flows
          | returning keyword value =>
              cases value with
              | none => exact .refl
              | some expr => exact first .returned
          | classDecl name methods => exact (Does.classValue rfl rfl).flows
      | loop condition body => exact first .guard
      | executeAll stmts =>
          cases stmts with
          | nil => exact .refl
          | cons head rest => exact first .firstStmt

/-- From what a moment reaches, steps that it reaches lead to its own end, both from
where that starts and from where it ends. -/
theorem Reaches.flows {first second : Moment} (reaches : first.Reaches distances second) :
    first.Flows distances second.machine (first.after distances) ∧
      first.Flows distances (second.after distances) (first.after distances) := by
  induction reaches using Relation.ReflTransGen.head_induction_on with
  | refl => exact ⟨Moment.flows second, .refl⟩
  | head asks _ ih =>
      have onwards := asks.flows_of fun task m => Moment.flows ⟨_, task, m⟩
      exact ⟨(ih.1.ask asks).trans onwards, (ih.2.ask asks).trans onwards⟩

/-- What every step of a run preserves, the run preserves. -/
theorem Flows.preserves {moment : Moment} {earlier later : Machine}
    (flows : moment.Flows distances earlier later) (alike : Machine → Machine → Prop)
    (refl : ∀ machine, alike machine machine)
    (trans : ∀ first second third, alike first second → alike second third → alike first third)
    (step : ∀ reached, moment.Reaches distances reached → ∀ first second,
      reached.Does distances first second → alike first second) : alike earlier later := by
  induction flows with
  | refl => exact refl earlier
  | tail _ does ih =>
      obtain ⟨reached, reaches, does⟩ := does
      exact trans _ _ _ ih (step reached reaches _ _ does)

end Moment

end Lox
