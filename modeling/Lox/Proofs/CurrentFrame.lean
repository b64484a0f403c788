/-
# The current frame is restored

Blocks and calls run in a frame of their own.  Whatever is run, and however it
ends, by itself, by a return, or because it was interrupted inside any number of
blocks, loops and calls, the current frame is afterwards the one in which it
started.  So every text of a session starts among the globals, also behind a text
that was interrupted in the middle of a block.

This is told of all trees, of all machines and of all distances: nothing has to
be known about how they came about.
-/

import Lox.Proofs.Session

namespace Lox

namespace Execution

variable {α : Type} {opens : Bool}

/-- However it ends, a computation leaves the machine in the frame in which it
started. -/
def Restores (computation : Execution α) : Prop :=
  ∀ machine, Ensures computation machine (fun _ later => later.current = machine.current)
    fun _ later => later.current = machine.current

theorem Stays.restores {computation : Execution α} (stays : Stays opens computation) :
    Restores computation :=
  fun machine => (stays machine).mono (fun _ _ kept => kept.current) fun _ _ kept => kept.current

/-- What runs in another frame may do there what it wants. -/
theorem restores_within (frame : FrameId) (computation : Execution α) :
    Restores (within frame computation) := by
  intro machine
  apply ensures_within
  rw [Ensures]
  split
  · rfl
  · rfl

end Execution

open Execution

/-- Whatever is run, the current frame is the same one behind it as before it,
whether it finishes or is interrupted; so it is that of the globals behind every
step of a session. -/
theorem current_frame_restored :
    (∀ (distances : Distances) (allowance : Nat),
      (∀ expr, Restores (evaluate distances allowance expr)) ∧
      (∀ exprs, Restores (evaluateAll distances allowance exprs)) ∧
      (∀ callee paren arguments, Restores (call distances allowance callee paren arguments)) ∧
      (∀ stmt, Restores (execute distances allowance stmt)) ∧
      (∀ condition body, Restores (loop distances allowance condition body)) ∧
      (∀ stmts, Restores (executeAll distances allowance stmts)) ∧
      (∀ frame stmts, Restores (within frame (executeAll distances allowance stmts))) ∧
      ∀ program, Restores (interpret distances allowance program)) ∧
    ∀ session texts, Session.History session texts →
      session.machine.current = Machine.globals := by
  refine ⟨fun distances allowance => ⟨?_, ?_, ?_, ?_, ?_, ?_, ?_, ?_⟩,
    fun session texts history => history.current⟩
  · exact fun expr => (stays_evaluate allowance expr).restores
  · exact fun exprs => (stays_evaluateAll allowance exprs).restores
  · exact fun callee paren arguments => (stays_call allowance callee paren arguments).restores
  · exact fun stmt => (stays_execute allowance stmt).restores
  · exact fun condition body => (stays_loop allowance condition body).restores
  · exact fun stmts => (stays_executeAll allowance stmts).restores
  · exact fun frame stmts => restores_within frame (executeAll distances allowance stmts)
  · exact fun program => (stays_interpret allowance program).restores

/-- A text that is interrupted two blocks and one call deep. -/
def interruptedInBlock : String :=
  "fun f()\x7b\x7bvar a=1;print b;\x7d\x7d\x7bvar c=2;f();\x7d"

/-- The session that it leaves. -/
def interruptedSession : Session :=
  (Session.start.run 100 interruptedInBlock).1

theorem interruptedSession_restored :
    (Session.start.run 100 interruptedInBlock).2.map RunFailure.message =
        some "Undefined variable 'b'.\n[line 1]" ∧
      interruptedSession.History
        ((Session.start.accepted? .script interruptedInBlock).toList ++ []) ∧
        interruptedSession.machine.current = Machine.globals := by
  have history := (Session.History.start {} (.ticking 0)).enter 100 .script interruptedInBlock
  exact ⟨by decide +kernel, history, current_frame_restored.2 _ _ history⟩

end Lox
