/-
# What a session does is the same for every allowance that suffices

The allowance of steps is nothing but a bound: it makes the evaluation of any program
end.  Every function of the evaluator is below itself with a larger allowance
(`Lexical.Below`), from any machine and for any trees and distances, so a computation
that ends of its own, with a value, with a run-time error or because the console fails,
ends in the same way with every larger allowance.

For a session this says that a text which does not use up its allowance has the same
outcome, and leaves the same session, with every allowance that is larger
(`Session.enter_of_le`); and that any two allowances which suffice agree
(`Session.enter_agree`).  A whole transcript in which no allowance is used up stays as
it is when the allowances grow (`Session.transcript_of_widens`).
-/

import Lox.Proofs.Lexical.Allowance
import Lox.Proofs.Transcript

namespace Lox

open Execution
open Lexical (Below Exhausted)

/-- In another frame there is the same order. -/
theorem below_within {α : Type} {first second : Execution α} (below : Below first second)
    (frame : FrameId) : Below (within frame first) (within frame second) := by
  intro machine
  unfold within
  rcases below { machine with current := frame } with ⟨later, exhausted⟩ | same
  · rw [exhausted]
    exact .inl ⟨{ later with current := machine.current }, rfl⟩
  · rw [same]
    exact .inr rfl

variable {distances : Distances}

mutual

theorem evaluate_below (n : Nat) (expr : Expr Reference) :
    Below (evaluate distances n expr) (evaluate distances (n + 1) expr) := by
  match n, expr with
  | 0, _ => exact .throw _
  | n + 1, .literal _ | n + 1, .variable _ _ | n + 1, .this _ _ => exact .refl _
  | n + 1, .grouping inner => exact evaluate_below n inner
  | n + 1, .unary operator operand => exact (evaluate_below n operand).bind fun _ => .refl _
  | n + 1, .binary left operator right =>
      exact (evaluate_below n left).bind fun _ => (evaluate_below n right).bind fun _ => .refl _
  | n + 1, .logical left operator right =>
      exact (evaluate_below n left).bind fun _ => .ite (.refl _) (evaluate_below n right)
  | n + 1, .assign _ name value => exact (evaluate_below n value).bind fun _ => .refl _
  | n + 1, .call callee paren arguments =>
      exact (evaluate_below n callee).bind fun value =>
        (evaluateAll_below n arguments).bind fun values => call_below n value paren values
  | n + 1, .get object name => exact (evaluate_below n object).bind fun _ => .refl _
  | n + 1, .set object name value =>
      refine (evaluate_below n object).bind fun owner => ?_
      cases owner with
      | instanceValue owner => exact (evaluate_below n value).bind fun _ => .refl _
      | _ => exact .refl _

theorem evaluateAll_below (n : Nat) (exprs : List (Expr Reference)) :
    Below (evaluateAll distances n exprs) (evaluateAll distances (n + 1) exprs) := by
  match n, exprs with
  | 0, _ => exact .throw _
  | n + 1, [] => exact .refl _
  | n + 1, first :: rest =>
      exact (evaluate_below n first).bind fun _ =>
        (evaluateAll_below n rest).bind fun _ => .refl _

theorem call_below (n : Nat) (callee : Value) (paren : Token) (arguments : List Value) :
    Below (call distances n callee paren arguments)
      (call distances (n + 1) callee paren arguments) := by
  match n, callee with
  | 0, _ => exact .throw _
  | n + 1, .function closure =>
      exact (Below.refl _).bind fun _ => (Below.refl _).bind fun frame =>
        (below_within (executeAll_below n closure.declaration.body) frame).bind fun _ => .refl _
  | n + 1, .native .clock => exact .refl _
  | n + 1, .classValue _ | n + 1, .nil | n + 1, .boolean _ | n + 1, .number _
  | n + 1, .string _ | n + 1, .instanceValue _ => exact .refl _

theorem execute_below (n : Nat) (stmt : Stmt Reference) :
    Below (execute distances n stmt) (execute distances (n + 1) stmt) := by
  match n, stmt with
  | 0, _ => exact .throw _
  | n + 1, .expression expr | n + 1, .print expr | n + 1, .returning _ (some expr)
  | n + 1, .varDecl _ (some expr) => exact (evaluate_below n expr).bind fun _ => .refl _
  | n + 1, .varDecl _ none | n + 1, .funDecl _ | n + 1, .returning _ none
  | n + 1, .classDecl _ _ => exact .refl _
  | n + 1, .block body =>
      exact (Below.refl _).bind fun _ => (Below.refl _).bind fun frame =>
        below_within (executeAll_below n body) frame
  | n + 1, .conditional condition onTrue none =>
      exact (evaluate_below n condition).bind fun _ => .ite (execute_below n onTrue) (.refl _)
  | n + 1, .conditional condition onTrue (some onFalse) =>
      exact (evaluate_below n condition).bind fun _ =>
        .ite (execute_below n onTrue) (execute_below n onFalse)
  | n + 1, .whileLoop condition body => exact loop_below n condition body

theorem loop_below (n : Nat) (condition : Expr Reference) (body : Stmt Reference) :
    Below (loop distances n condition body) (loop distances (n + 1) condition body) := by
  match n with
  | 0 => exact .throw _
  | n + 1 =>
      refine (evaluate_below n condition).bind fun _ => .ite ?_ (.refl _)
      refine (execute_below n body).bind fun completion => ?_
      cases completion with
      | normal => exact loop_below n condition body
      | returned value => exact .refl _

theorem executeAll_below (n : Nat) (stmts : List (Stmt Reference)) :
    Below (executeAll distances n stmts) (executeAll distances (n + 1) stmts) := by
  match n, stmts with
  | 0, _ => exact .throw _
  | n + 1, [] => exact .refl _
  | n + 1, first :: rest =>
      refine (execute_below n first).bind fun completion => ?_
      cases completion with
      | normal => exact executeAll_below n rest
      | returned value => exact .refl _

end

theorem interpret_below (n : Nat) (program : List (Stmt Reference)) :
    Below (interpret distances n program) (interpret distances (n + 1) program) := by
  induction program with
  | nil => exact .refl _
  | cons first rest ih => exact (execute_below n first).bind fun _ => ih

variable {n more : Nat}

/-- What is run of a text is run in the same way with a larger allowance. -/
theorem computation_mono (entry : Entry) (program : List (Stmt Reference)) (le : n ≤ more) :
    Below (entry.computation distances n program) (entry.computation distances more program) := by
  unfold Entry.computation
  split
  · next expr => exact (Below.of_le (evaluate_below · expr) le).bind fun _ => .refl _
  · exact .of_le (interpret_below · program) le

namespace Session

variable {session : Session} {entry : Entry} {source : String}

/-- A text was not run to an end of its own: its allowance is used up. -/
def RanOut (outcome : Session × Option RunFailure) : Prop :=
  outcome.2 = some (.interrupted .exhausted)

variable {outcome : Session × Option RunFailure}

theorem ended?_of_ranOut (ranOut : RanOut outcome) : ended? outcome = none := by
  rw [ended?, ranOut]

theorem ended?_of_not_ranOut (finished : ¬ RanOut outcome) : ended? outcome = some outcome := by
  unfold ended?
  split
  · next ranOut => exact absurd ranOut finished
  · rfl

/-- What is below another computation does the same in a session, unless its allowance
is used up. -/
theorem perform_eq_of_below {α : Type} {first second : Execution α} (below : Below first second)
    (session : Session) (finished : ¬ RanOut (session.perform first)) :
    session.perform first = session.perform second := by
  rcases below session.machine with ⟨later, exhausted⟩ | same
  · refine absurd ?_ finished
    rw [RanOut, perform, EStateM.run, exhausted]
  · rw [perform, perform, EStateM.run, EStateM.run, same]

/-- A text that does not use up its allowance does the same with every larger one: it
leaves the same session, and it fails in the same way or not at all. -/
theorem enter_of_le (le : n ≤ more) (finished : ¬ RanOut (session.enter n entry source)) :
    session.enter more entry source = session.enter n entry source := by
  rw [enter_eq] at finished
  rw [enter_eq, enter_eq]
  -- A text is rejected without a look at the allowance.
  split
  · rfl
  · next clean =>
      rw [clean] at finished
      dsimp only at finished
      split
      · rfl
      · next quiet =>
          rw [quiet] at finished
          exact (perform_eq_of_below (computation_mono entry _ le) _ finished).symm

/-- Two allowances that both suffice for a text agree on what it does. -/
theorem enter_agree (finished : ¬ RanOut (session.enter n entry source))
    (finished' : ¬ RanOut (session.enter more entry source)) :
    session.enter n entry source = session.enter more entry source := by
  rcases Nat.le_total n more with le | le
  · exact (enter_of_le le finished).symm
  · exact enter_of_le le finished'

end Session

/-- The same step with an allowance that is at least as large. -/
inductive Step.Widens : Step → Step → Prop where
  | clock (clock : Clock) : Widens (.clock clock) (.clock clock)
  | enter {n more : Nat} (le : n ≤ more) (entry : Entry) (source : String) :
    Widens (.enter n entry source) (.enter more entry source)

namespace Session

/-- In a session, no text that is entered in some steps uses up its allowance. -/
def Finishes (session : Session) (steps : List Step) : Prop :=
  ∀ answer ∈ session.transcript steps, answer.failure ≠ some (.interrupted .exhausted)
deriving Decidable

theorem finishes_clock {session : Session} {clock : Clock} {steps : List Step} :
    session.Finishes (.clock clock :: steps) ↔ (session.withClock clock).Finishes steps :=
  Iff.rfl

theorem finishes_enter {session : Session} {entry : Entry} {source : String}
    {steps : List Step} : session.Finishes (.enter n entry source :: steps) ↔
      ¬ RanOut (session.enter n entry source) ∧
        (session.enter n entry source).1.Finishes steps :=
  List.forall_mem_cons

/-- A session in which no text uses up its allowance is seen to do the same with larger
allowances, text by text. -/
theorem transcript_of_widens {steps wider : List Step}
    (widens : List.Forall₂ Step.Widens steps wider) {session : Session}
    (finishes : session.Finishes steps) :
    session.transcript wider = session.transcript steps := by
  induction widens generalizing session with
  | nil => rfl
  | cons widens _ ih =>
      cases widens with
      | clock clock => exact ih (finishes_clock.1 finishes)
      | enter le entry source =>
          obtain ⟨finished, further⟩ := finishes_enter.1 finishes
          rw [transcript, transcript, enter_of_le le finished, ih further]

/-- With larger allowances no text uses them up either. -/
theorem Finishes.widens {steps wider : List Step} {session : Session}
    (finishes : session.Finishes steps) (widens : List.Forall₂ Step.Widens steps wider) :
    session.Finishes wider := by
  rw [Finishes, transcript_of_widens widens finishes]
  exact finishes

end Session

end Lox
