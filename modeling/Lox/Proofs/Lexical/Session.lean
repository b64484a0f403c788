/-
# Distances implement lexical scoping

A memory accompanies a session if it has run the texts that the session accepted,
one after the other and with the same allowances (`Lexical.Accompanies`).  It
mirrors the machine of the session between the texts, so both end the next one
alike: they have printed the same, and they are stopped by the same interrupt or
by none (`Lexical.Accompanies.ends_alike`).

This is a statement about the distances of the analysis.  The evaluator on
memories finds a variable by its name among the names in force where the text was
written; the one on machines goes outwards by the distance that was recorded,
through frames that other functions share and change.
-/

import Lox.Proofs.Lexical.Simulation
import Lox.Proofs.Session

namespace Lox

open Execution Analysis

namespace Lexical

variable {texts : List Text} {layout : Layout} {distances : Distances} {memory : Memory}
  {machine : Machine} {session : Session} {entry : Entry} {source : String} {text : Text}

/-! ## Whole texts -/

/-- The two evaluators agree on statements that run among the globals. -/
theorem follows_interpret (resolved : Resolved distances texts) (allowance : Nat)
    {program : List (Stmt Reference)} {analysis : Analysis}
    (visited : Visited texts analysis (.stmts program)) (top : analysis.scopes = [])
    (mirrors : machine.Mirrors texts layout memory) (current : machine.current = Machine.globals) :
    Follows texts true layout (Lox.interpret distances allowance program) machine
      (interpret allowance (Stmt.allUnlabelled program)) memory fun _ _ _ _ => True := by
  induction program generalizing analysis layout machine memory with
  | nil => exact .pure mirrors trivial
  | cons first rest ih =>
      have stands : Stands layout machine.frames machine.current analysis.scopes .top :=
        top ▸ current
      refine (follows_execute resolved allowance (visited.call .firstStmt) mirrors stands).bind
        fun _ _ _ _ _ behind mirrors _ => ?_
      exact ih (visited.call .otherStmts) (scopes_top (visited.call .firstStmt) top) mirrors
        (behind.keeps.current.trans current)

/-- A text that is one expression without its labels is one with them. -/
theorem exists_of_allUnlabelled {program : List (Stmt Reference)} {expr : Expr Unit}
    (same : Stmt.allUnlabelled program = [.expression expr]) :
    ∃ inner, program = [.expression inner] := by
  cases program with
  | nil => cases same
  | cons first rest =>
      rw [Stmt.allUnlabelled] at same
      obtain ⟨head, tail⟩ := List.cons.inj same
      cases rest with
      | cons second rest => cases tail
      | nil =>
          cases first with
          | expression inner => exact ⟨inner, rfl⟩
          | varDecl name initializer => cases initializer <;> cases head
          | conditional condition onTrue onFalse => cases onFalse <;> cases head
          | returning keyword value => cases value <;> cases head
          | _ => cases head

/-- The two evaluators agree on an accepted text. -/
theorem follows_computation (resolved : Resolved distances texts) (entry : Entry)
    (allowance : Nat) {program : List (Stmt Reference)} {analysis : Analysis}
    (visited : Visited texts analysis (.stmts program)) (top : analysis.scopes = [])
    (mirrors : machine.Mirrors texts layout memory) (current : machine.current = Machine.globals) :
    Follows texts true layout (entry.computation distances allowance program) machine
      (computation entry allowance (Stmt.allUnlabelled program)) memory fun _ _ _ _ => True := by
  unfold Entry.computation
  split
  · next expr =>
      have fits : Matches layout machine.frames machine.current analysis.scopes [] :=
        top ▸ ⟨current, rfl⟩
      have visits := (visited.call .firstStmt).call .expression
      exact (follows_evaluate resolved allowance visits mirrors fits).behind
        fun _ _ _ _ _ _ mirrors same => follows_print mirrors same
  · next other =>
      have interprets : computation entry allowance (Stmt.allUnlabelled program) =
          interpret allowance (Stmt.allUnlabelled program) := by
        unfold computation
        split
        · next same =>
            obtain ⟨inner, single⟩ := exists_of_allUnlabelled same
            exact (other inner rfl single).elim
        · rfl
      rw [interprets]
      exact follows_interpret resolved allowance visited top mirrors current

/-- What follows a computation of a session is stopped by the same interrupt, on a
memory that mirrors the machine. -/
theorem Follows.perform {α β : Type} {opens : Bool} {computation : Execution α}
    {image : Evaluation β} {related : Layout → FrameStore Lox.Value → α → β → Prop}
    (follows : Follows texts opens layout computation session.machine image memory related) :
    (session.perform computation).2 = (memory.perform image).2.map RunFailure.interrupted ∧
      ∃ later, (session.perform computation).1.machine.Mirrors texts later
        (memory.perform image).1 := by
  rw [Session.perform, Memory.perform, EStateM.run, EStateM.run]
  rw [Follows] at follows
  split at follows
  · next ran ran' =>
      obtain ⟨later, _, mirrors, _⟩ := follows
      rw [ran, ran']
      exact ⟨rfl, later, mirrors⟩
  · next ran ran' =>
      obtain ⟨rfl, later, mirrors⟩ := follows
      rw [ran, ran']
      exact ⟨rfl, later, mirrors⟩
  · exact follows.elim

/-- Both run an accepted text alike. -/
theorem run_spec (knows : session.Knows texts) (current : session.machine.current = Machine.globals)
    (mirrors : session.machine.Mirrors texts layout memory)
    (accepted : session.accepted? entry source = some text) (allowance : Nat) :
    (session.enter allowance entry source).2 =
        (memory.run allowance entry source).2.map RunFailure.interrupted ∧
      ∃ later, (session.enter allowance entry source).1.machine.Mirrors (text :: texts) later
        (memory.run allowance entry source).1 := by
  have accepts := knows.accept accepted
  have known := mirrors.known fun _ => List.mem_cons_of_mem text
  have visited := accepts.visited List.mem_cons_self
  have read : Stmt.allUnlabelled text.program =
      (Program.ofSource (entry = .line) source).statements := by
    obtain ⟨_, rfl⟩ := Session.accepted?_eq_some.1 accepted
    exact session.unlabelled_program entry source
  rw [Session.enter_accepted allowance accepted, Memory.run, ← read]
  apply Follows.perform
  exact follows_computation accepts.kept entry allowance visited rfl known current

/-! ## Histories -/

/-- Between its texts, a session is mirrored by a memory. -/
def Mirrored (session : Session) (memory : Memory) : Prop :=
  ∃ texts layout, session.Knows texts ∧ session.machine.current = Machine.globals ∧
    session.machine.Mirrors texts layout memory

/-- A session that has run a text as a memory has run it: with the same interrupt or
none, and the memory mirrors it again. -/
def MirroredRun (outcome : Session × Option RunFailure) (ran : Memory × Option Interrupt) : Prop :=
  outcome.2 = ran.2.map RunFailure.interrupted ∧ Mirrored outcome.1 ran.1

namespace Mirrored

theorem withClock (mirrored : Mirrored session memory) (clock : Clock) :
    Mirrored (session.withClock clock) { memory with clock := clock } := by
  obtain ⟨texts, layout, knows, current, mirrors⟩ := mirrored
  exact ⟨texts, layout, knows.congr rfl rfl, current, { mirrors with clock := rfl }⟩

/-- An accepted text is run on both. -/
theorem enter (mirrored : Mirrored session memory)
    (quiet : session.errors entry source = []) (allowance : Nat) :
    MirroredRun (session.enter allowance entry source) (memory.run allowance entry source) := by
  obtain ⟨texts, layout, knows, current, mirrors⟩ := mirrored
  have accepted := Session.accepted?_eq_some.2 ⟨quiet, rfl⟩
  obtain ⟨same, later, mirrors⟩ := run_spec knows current mirrors accepted allowance
  have knows' := knows.enter allowance entry source
  rw [accepted] at knows'
  have current' := (session.current_enter allowance entry source).trans current
  exact ⟨same, _, later, knows', current', mirrors⟩

/-- A rejected text leaves the memory in place. -/
theorem reject (mirrored : Mirrored session memory)
    (rejected : session.accepted? entry source = none) (allowance : Nat) :
    Mirrored (session.enter allowance entry source).1 memory := by
  obtain ⟨texts, layout, knows, current, mirrors⟩ := mirrored
  obtain ⟨_, same⟩ := Session.enter_rejected allowance rejected
  have knows' := knows.enter allowance entry source
  rw [rejected] at knows'
  rw [← same] at current mirrors
  exact ⟨texts, layout, knows', current, mirrors⟩

end Mirrored

/-- A memory has run the texts that a session accepted, one after the other and
with the same allowances.  Of texts that the session rejected it has run nothing. -/
inductive Accompanies : Memory → Session → Prop where
  | start (limits : ConsoleLimits) (clock : Clock) :
      Accompanies (.initial { limits := limits } clock) (.start limits clock)
  | withClock {memory : Memory} {session : Session} (accompanies : Accompanies memory session)
      (clock : Clock) : Accompanies { memory with clock := clock } (session.withClock clock)
  | rejected {memory : Memory} {session : Session} {entry : Entry} {source : String}
      (accompanies : Accompanies memory session) (allowance : Nat)
      (rejected : session.accepted? entry source = none) :
      Accompanies memory (session.enter allowance entry source).1
  | accepted {memory : Memory} {session : Session} {entry : Entry} {source : String} {text : Text}
      (accompanies : Accompanies memory session) (allowance : Nat)
      (accepted : session.accepted? entry source = some text) :
      Accompanies (memory.run allowance entry source).1 (session.enter allowance entry source).1

namespace Accompanies

/-- Between the texts of a session, the memory mirrors the machine. -/
theorem mirrors (accompanies : Accompanies memory session) : Mirrored session memory := by
  induction accompanies with
  | start limits clock =>
      have knows := (Session.History.start limits clock).knows
      exact ⟨[], [], knows, rfl, Machine.Mirrors.initial _ clock⟩
  | withClock _ clock ih => exact ih.withClock clock
  | rejected _ allowance rejected ih => exact ih.reject rejected allowance
  | accepted _ allowance accepted ih =>
      exact (ih.enter (Session.accepted?_eq_some.1 accepted).1 allowance).2

/-- Every session is accompanied by a memory. -/
theorem exists_of_history (history : session.History texts) :
    ∃ memory, Accompanies memory session := by
  induction history with
  | start limits clock => exact ⟨_, .start limits clock⟩
  | withClock _ clock ih =>
      obtain ⟨memory, accompanies⟩ := ih
      exact ⟨_, accompanies.withClock clock⟩
  | @enter session _ _ allowance entry source ih =>
      obtain ⟨memory, accompanies⟩ := ih
      cases accepted : session.accepted? entry source with
      | none => exact ⟨_, accompanies.rejected allowance accepted⟩
      | some text => exact ⟨_, accompanies.accepted allowance accepted⟩

/-- A session and a memory that accompanies it run the next accepted text alike,
whatever the allowance: they are stopped by the same interrupt, or both by none,
and what they have printed is the same. -/
theorem ends_alike (accompanies : Accompanies memory session)
    (accepted : session.accepted? entry source = some text) (allowance : Nat) :
    (session.enter allowance entry source).2 =
        (memory.run allowance entry source).2.map RunFailure.interrupted ∧
      (session.enter allowance entry source).1.machine.console =
        (memory.run allowance entry source).1.console := by
  obtain ⟨texts, layout, knows, current, mirrors⟩ := accompanies.mirrors
  obtain ⟨same, later, mirrors⟩ := run_spec knows current mirrors accepted allowance
  exact ⟨same, mirrors.console.symm⟩

/-- A session that has declared a global variable. -/
def globalSession : Session :=
  (Session.start.enter 100 .line "var a=\"global\";").1

/-- The memory that accompanies it. -/
def globalMemory : Memory :=
  ((Memory.initial {} (.ticking 0)).run 100 .line "var a=\"global\";").1

/-- A block that declares the variable too, between two calls of a function that
reads it. -/
def lateDeclaration : String :=
  "\x7bfun show()\x7bprint a;\x7dshow();var a=\"block\";show();\x7d"

theorem lateDeclaration_ends_alike : ∃ text, Accompanies globalMemory globalSession ∧
    globalSession.accepted? .script lateDeclaration = some text ∧
      (globalSession.enter 100 .script lateDeclaration).2 =
          (globalMemory.run 100 .script lateDeclaration).2.map RunFailure.interrupted ∧
        (globalSession.enter 100 .script lateDeclaration).1.machine.console =
          (globalMemory.run 100 .script lateDeclaration).1.console ∧
        (globalMemory.run 100 .script lateDeclaration).1.console.lines.toList =
          ["global", "global"] := by
  have line : (Session.start.errors .line "var a=\"global\";").isEmpty = true := by decide +kernel
  have block : (globalSession.errors .script lateDeclaration).isEmpty = true := by decide +kernel
  have known := Session.accepted?_eq_some.2 ⟨List.isEmpty_iff.1 line, rfl⟩
  have accepted := Session.accepted?_eq_some.2 ⟨List.isEmpty_iff.1 block, rfl⟩
  have accompanies : Accompanies globalMemory globalSession := (start {} (.ticking 0)).accepted 100 known
  have ⟨outcome, console⟩ := accompanies.ends_alike accepted 100
  exact ⟨_, accompanies, accepted, outcome, console, by decide +kernel⟩

end Accompanies

end Lexical

end Lox
