/-
# Moments on a console that fails

On a console that fails after so many flushes, a run comes to the same moments as
on one that cannot fail, as long as not more lines have been flushed
(`Moment.reaches_limited_iff`).  A moment holds the whole machine, so the two runs
do not only come to the same statements and expressions, but with the same values,
frames, fields and identities.
-/

import Lox.Proofs.Agreement.Session
import Lox.Proofs.FailingConsole

namespace Lox

open Execution

variable {α : Type} {distances : Distances} {fault : OutputFault} {flushes : Nat}

namespace Execution.Cut

variable {computation : Execution α} {machine later m : Machine} {value : α}

/-- A computation that finishes on a console that cannot fail has only printed. -/
theorem finished (cut : Cut fault computation) (unlimited : machine.console.limits = {})
    (ran : computation machine = .ok value later) : machine.Prints later := by
  have prints := cut.prints unlimited
  rwa [ran] at prints

/-- If there were not too many lines to print, a computation finishes on the console
that fails as on the other one. -/
theorem limited (cut : Cut fault computation) (unlimited : machine.console.limits = {})
    (ran : computation machine = .ok value later) (enough : later.console.flushed ≤ flushes) :
    computation (machine.limited (fault.after flushes)) =
      .ok value (later.limited (fault.after flushes)) := by
  have before := (cut.finished unlimited ran).flushed_le
  have cuts := cut flushes machine unlimited (Nat.le_trans before enough)
  rw [ran] at cuts
  generalize computation (machine.limited (fault.after flushes)) = outcome at cuts ⊢
  cases cuts with
  | alike => rfl
  | cut prints beyond => exact absurd enough (Nat.not_le.2 beyond)

/-- What finishes on the console that fails finishes on the other one, and there
were not too many lines to print. -/
theorem of_limited (cut : Cut fault computation) (unlimited : machine.console.limits = {})
    (enough : machine.console.flushed ≤ flushes)
    (ran : computation (machine.limited (fault.after flushes)) = .ok value m) :
    ∃ later, computation machine = .ok value later ∧ later.console.flushed ≤ flushes ∧
      m = later.limited (fault.after flushes) := by
  have cuts := cut flushes machine unlimited enough
  rw [ran] at cuts
  generalize computation machine = outcome at cuts
  generalize same : EStateM.Result.ok value m = outcome' at cuts
  cases cuts with
  | cut => cases same
  | alike prints enough =>
      cases outcome with
      | error interrupt later => cases same
      | ok value' later =>
          cases same
          exact ⟨later, rfl, enough, rfl⟩

end Execution.Cut

section Finished

variable {n : Nat} {machine later : Machine}

/-- An expression that has a value has only printed. -/
theorem prints_of_evaluate {expr : Expr Reference} {value : Value}
    (unlimited : machine.console.limits = {})
    (ran : evaluate distances n expr machine = .ok value later) : machine.Prints later :=
  have cut : Execution.Cut .pipeClosed (evaluate distances n expr) := cut_evaluate n expr
  cut.finished unlimited ran

/-- A row of expressions that have values has only printed. -/
theorem prints_of_evaluateAll {exprs : List (Expr Reference)} {values : List Value}
    (unlimited : machine.console.limits = {})
    (ran : evaluateAll distances n exprs machine = .ok values later) : machine.Prints later :=
  have cut : Execution.Cut .pipeClosed (evaluateAll distances n exprs) := cut_evaluateAll n exprs
  cut.finished unlimited ran

/-- A statement that is completed has only printed. -/
theorem prints_of_execute {stmt : Stmt Reference} {completion : Completion}
    (unlimited : machine.console.limits = {})
    (ran : execute distances n stmt machine = .ok completion later) : machine.Prints later :=
  have cut : Execution.Cut .pipeClosed (execute distances n stmt) := cut_execute n stmt
  cut.finished unlimited ran

end Finished

namespace Moment

/-- The same moment with other limits of the console. -/
def limited (moment : Moment) (limits : ConsoleLimits) : Moment :=
  { moment with machine := moment.machine.limited limits }

variable {first second : Moment}

/-- Between a moment and those that it asks for, there is only printed. -/
theorem Asks.prints (asks : Asks distances first second)
    (unlimited : first.machine.console.limits = {}) : first.machine.Prints second.machine := by
  cases asks with
  | right ran | second ran | arguments ran | stored ran | otherExprs ran | onTrue ran
    | onFalse ran | round ran => exact prints_of_evaluate unlimited ran
  | otherStmts ran => exact prints_of_execute unlimited ran
  | call ran ran' =>
      have first := prints_of_evaluate unlimited ran
      exact first.trans (prints_of_evaluateAll first.unlimited ran')
  | again ran _ ran' =>
      have first := prints_of_evaluate unlimited ran
      exact first.trans (prints_of_execute first.unlimited ran')
  | _ => exact .of_console_eq unlimited rfl

/-- What a moment asks for on a console that cannot fail, it asks for on the one that
fails, unless too many lines have been printed by then. -/
theorem Asks.limited (asks : Asks distances first second)
    (unlimited : first.machine.console.limits = {})
    (enough : second.machine.console.flushed ≤ flushes) :
    Asks distances (first.limited (fault.after flushes))
      (second.limited (fault.after flushes)) := by
  cases asks with
  | inner => exact .inner
  | operand => exact .operand
  | left => exact .left
  | right ran => exact .right ((cut_evaluate _ _).limited unlimited ran enough)
  | first => exact .first
  | second ran goesOn => exact .second ((cut_evaluate _ _).limited unlimited ran enough) goesOn
  | value => exact .value
  | callee => exact .callee
  | arguments ran => exact .arguments ((cut_evaluate _ _).limited unlimited ran enough)
  | call ran ran' =>
      have before := prints_of_evaluate unlimited ran
      have behind := prints_of_evaluateAll before.unlimited ran'
      exact .call ((cut_evaluate _ _).limited unlimited ran
        (Nat.le_trans behind.flushed_le enough))
        ((cut_evaluateAll _ _).limited before.unlimited ran' enough)
  | object => exact .object
  | owner => exact .owner
  | stored ran => exact .stored ((cut_evaluate _ _).limited unlimited ran enough)
  | firstExpr => exact .firstExpr
  | otherExprs ran => exact .otherExprs ((cut_evaluate _ _).limited unlimited ran enough)
  | body arity => exact .body arity
  | expression => exact .expression
  | print => exact .print
  | initializer => exact .initializer
  | block => exact .block
  | condition => exact .condition
  | onTrue ran truthy => exact .onTrue ((cut_evaluate _ _).limited unlimited ran enough) truthy
  | onFalse ran falsy => exact .onFalse ((cut_evaluate _ _).limited unlimited ran enough) falsy
  | loop => exact .loop
  | guard => exact .guard
  | round ran truthy => exact .round ((cut_evaluate _ _).limited unlimited ran enough) truthy
  | again ran truthy ran' =>
      have before := prints_of_evaluate unlimited ran
      have behind := prints_of_execute before.unlimited ran'
      exact .again ((cut_evaluate _ _).limited unlimited ran
        (Nat.le_trans behind.flushed_le enough)) truthy
        ((cut_execute _ _).limited before.unlimited ran' enough)
  | returned => exact .returned
  | firstStmt => exact .firstStmt
  | otherStmts ran => exact .otherStmts ((cut_execute _ _).limited unlimited ran enough)

/-- What a moment asks for on the console that fails, it asks for on the other one,
and not too many lines have been printed by then. -/
theorem Asks.of_limited (asks : Asks distances (first.limited (fault.after flushes)) second)
    (unlimited : first.machine.console.limits = {})
    (enough : first.machine.console.flushed ≤ flushes) :
    ∃ other, Asks distances first other ∧ other.machine.console.flushed ≤ flushes ∧
      second = other.limited (fault.after flushes) := by
  obtain ⟨n, task, m⟩ := first
  have asks : Asks distances ⟨n, task, m.limited (fault.after flushes)⟩ second := asks
  have evaluated {n : Nat} {expr : Expr Reference} {value : Value} {m' : Machine}
      (ran : evaluate distances n expr (m.limited (fault.after flushes)) = .ok value m') :=
    (cut_evaluate n expr).of_limited unlimited enough ran
  cases asks with
  | inner => exact ⟨_, .inner, enough, rfl⟩
  | operand => exact ⟨_, .operand, enough, rfl⟩
  | left => exact ⟨_, .left, enough, rfl⟩
  | right ran =>
      obtain ⟨_, healthy, enough, rfl⟩ := evaluated ran
      exact ⟨_, .right healthy, enough, rfl⟩
  | first => exact ⟨_, .first, enough, rfl⟩
  | second ran goesOn =>
      obtain ⟨_, healthy, enough, rfl⟩ := evaluated ran
      exact ⟨_, .second healthy goesOn, enough, rfl⟩
  | value => exact ⟨_, .value, enough, rfl⟩
  | callee => exact ⟨_, .callee, enough, rfl⟩
  | arguments ran =>
      obtain ⟨_, healthy, enough, rfl⟩ := evaluated ran
      exact ⟨_, .arguments healthy, enough, rfl⟩
  | call ran ran' =>
      obtain ⟨_, healthy, enough, rfl⟩ := evaluated ran
      have prints := prints_of_evaluate unlimited healthy
      obtain ⟨_, healthy', enough, rfl⟩ :=
        (cut_evaluateAll _ _).of_limited prints.unlimited enough ran'
      exact ⟨_, .call healthy healthy', enough, rfl⟩
  | object => exact ⟨_, .object, enough, rfl⟩
  | owner => exact ⟨_, .owner, enough, rfl⟩
  | stored ran =>
      obtain ⟨_, healthy, enough, rfl⟩ := evaluated ran
      exact ⟨_, .stored healthy, enough, rfl⟩
  | firstExpr => exact ⟨_, .firstExpr, enough, rfl⟩
  | otherExprs ran =>
      obtain ⟨_, healthy, enough, rfl⟩ := evaluated ran
      exact ⟨_, .otherExprs healthy, enough, rfl⟩
  | body arity => exact ⟨_, .body arity, enough, rfl⟩
  | expression => exact ⟨_, .expression, enough, rfl⟩
  | print => exact ⟨_, .print, enough, rfl⟩
  | initializer => exact ⟨_, .initializer, enough, rfl⟩
  | block => exact ⟨_, .block, enough, rfl⟩
  | condition => exact ⟨_, .condition, enough, rfl⟩
  | onTrue ran truthy =>
      obtain ⟨_, healthy, enough, rfl⟩ := evaluated ran
      exact ⟨_, .onTrue healthy truthy, enough, rfl⟩
  | onFalse ran falsy =>
      obtain ⟨_, healthy, enough, rfl⟩ := evaluated ran
      exact ⟨_, .onFalse healthy falsy, enough, rfl⟩
  | loop => exact ⟨_, .loop, enough, rfl⟩
  | guard => exact ⟨_, .guard, enough, rfl⟩
  | round ran truthy =>
      obtain ⟨_, healthy, enough, rfl⟩ := evaluated ran
      exact ⟨_, .round healthy truthy, enough, rfl⟩
  | again ran truthy ran' =>
      obtain ⟨_, healthy, enough, rfl⟩ := evaluated ran
      have prints := prints_of_evaluate unlimited healthy
      obtain ⟨_, healthy', enough, rfl⟩ :=
        (cut_execute _ _).of_limited prints.unlimited enough ran'
      exact ⟨_, .again healthy truthy healthy', enough, rfl⟩
  | returned => exact ⟨_, .returned, enough, rfl⟩
  | firstStmt => exact ⟨_, .firstStmt, enough, rfl⟩
  | otherStmts ran =>
      obtain ⟨_, healthy, enough, rfl⟩ := (cut_execute _ _).of_limited unlimited enough ran
      exact ⟨_, .otherStmts healthy, enough, rfl⟩

/-- A moment that is reached comes with a machine that has only printed. -/
theorem Reaches.prints (reaches : Reaches distances first second)
    (unlimited : first.machine.console.limits = {}) : first.machine.Prints second.machine := by
  induction reaches with
  | refl => exact .of_console_eq unlimited rfl
  | tail _ asks ih => exact ih.trans (asks.prints ih.unlimited)

/-- The console that fails reaches the moments of the other one until too many lines
have been printed. -/
theorem reaches_limited_iff (unlimited : first.machine.console.limits = {})
    (enough : first.machine.console.flushed ≤ flushes) :
    Reaches distances (first.limited (fault.after flushes)) second ↔
      ∃ other, Reaches distances first other ∧ other.machine.console.flushed ≤ flushes ∧
        second = other.limited (fault.after flushes) := by
  constructor
  · intro reaches
    induction reaches with
    | refl => exact ⟨first, .refl, enough, rfl⟩
    | tail _ asks ih =>
        obtain ⟨other, reached, enough, rfl⟩ := ih
        obtain ⟨next, asked, enough, rfl⟩ :=
          asks.of_limited (Reaches.prints reached unlimited).unlimited enough
        exact ⟨next, reached.tail asked, enough, rfl⟩
  · rintro ⟨other, reaches, enough, rfl⟩
    induction reaches with
    | refl => exact .refl
    | tail reached asks ih =>
        have unlimited := (Reaches.prints reached unlimited).unlimited
        have before := Nat.le_trans (asks.prints unlimited).flushed_le enough
        exact (ih before).tail (asks.limited unlimited enough)

end Moment

/-! ## Whole texts -/

variable {allowance : Nat} {program : List (Stmt Reference)} {machine : Machine} {moment : Moment}

/-- A moment that a program starts with comes with a machine that has only printed. -/
theorem Starts.prints (starts : Starts distances allowance program machine moment)
    (unlimited : machine.console.limits = {}) : machine.Prints moment.machine := by
  induction starts with
  | first => exact .of_console_eq unlimited rfl
  | later ran _ ih =>
      have before := prints_of_execute unlimited ran
      exact before.trans (ih before.unlimited)

/-- The console that fails starts with the moments of the other one until too many lines
have been printed. -/
theorem starts_limited_iff (unlimited : machine.console.limits = {})
    (enough : machine.console.flushed ≤ flushes) :
    Starts distances allowance program (machine.limited (fault.after flushes)) moment ↔
      ∃ other, Starts distances allowance program machine other ∧
        other.machine.console.flushed ≤ flushes ∧
          moment = other.limited (fault.after flushes) := by
  have cut (stmt : Stmt Reference) : Execution.Cut fault (execute distances allowance stmt) :=
    cut_execute allowance stmt
  induction program generalizing machine with
  | nil => exact ⟨nofun, fun ⟨_, starts, _⟩ => nomatch starts⟩
  | cons stmt rest ih =>
      constructor
      · intro starts
        cases starts with
        | first => exact ⟨_, .first, enough, rfl⟩
        | later ran starts =>
            obtain ⟨_, healthy, enough, rfl⟩ := (cut stmt).of_limited unlimited enough ran
            have unlimited := (prints_of_execute unlimited healthy).unlimited
            obtain ⟨other, starts, found⟩ := (ih unlimited enough).1 starts
            exact ⟨other, .later healthy starts, found⟩
      · rintro ⟨other, starts, enough, rfl⟩
        cases starts with
        | first => exact .first
        | later ran starts =>
            have later := (prints_of_execute unlimited ran).unlimited
            have before := Nat.le_trans (starts.prints later).flushed_le enough
            exact .later ((cut stmt).limited unlimited ran before)
              ((ih later before).2 ⟨other, starts, enough, rfl⟩)

theorem Entry.Starts.prints {entry : Entry}
    (starts : entry.Starts distances allowance program machine moment)
    (unlimited : machine.console.limits = {}) : machine.Prints moment.machine := by
  unfold Entry.Starts at starts
  split at starts
  · rw [starts]
    exact .of_console_eq unlimited rfl
  · exact Lox.Starts.prints starts unlimited

theorem Entry.starts_limited_iff (entry : Entry) (unlimited : machine.console.limits = {})
    (enough : machine.console.flushed ≤ flushes) :
    entry.Starts distances allowance program (machine.limited (fault.after flushes)) moment ↔
      ∃ other, entry.Starts distances allowance program machine other ∧
        other.machine.console.flushed ≤ flushes ∧
          moment = other.limited (fault.after flushes) := by
  unfold Entry.Starts
  split
  · constructor
    · rintro rfl
      exact ⟨_, rfl, enough, rfl⟩
    · rintro ⟨other, rfl, _, rfl⟩
      rfl
  · exact Lox.starts_limited_iff unlimited enough

end Lox
