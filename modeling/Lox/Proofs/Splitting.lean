/-
# Splitting a script

Two scripts may be run one after the other, or as one script with a newline between
them.  Nothing that is seen of the session, then or later, tells which was done, but
for the lines of run-time errors: where the second script stands below the first
one, an error that is raised at a token of it is found so many lines further down
(`Session.History.split_run`).

To know where an error was raised, the lines of the second script are marked.  The
evaluator does the same on marked lines, and from a marked line the real one can be
told wherever the second script stands.
-/

import Lox.Proofs.Joining
import Lox.Proofs.Lexical.Lines
import Lox.Proofs.Transcript

namespace Lox

/-- Runs a script and then, if nothing stopped it, another one. -/
def Session.runBoth (session : Session) (allowance : Nat) (first second : String) :
    Session × Option RunFailure :=
  match session.run allowance first with
  | (later, none) => later.run allowance second
  | stopped => stopped

/-- The failure with the line of its run-time error so many lines further down. -/
def RunFailure.lowered (lines : Nat) : RunFailure → RunFailure
  | .interrupted interrupt => .interrupted (interrupt.relined (· + lines))
  | .rejected errors => .rejected errors

/-- What is seen of a text in or behind two scripts that were run one after the
other. -/
structure MarkedAnswer where
  answer : Answer
  /-- Whether there was a run-time error at a token of the second script. -/
  inSecond : Bool

/-- What is seen instead if the second script stands so many lines further down. -/
def MarkedAnswer.lowered (lines : Nat) (marked : MarkedAnswer) : Answer :=
  if marked.inSecond then
    { marked.answer with failure := marked.answer.failure.map (RunFailure.lowered lines) }
  else marked.answer

/-! ## Marked lines -/

/-- A line with a mark on it if it is one of the second script. -/
def mark (second : Bool) (line : Nat) : Nat :=
  2 * line + second.toNat

/-- The line with a mark, if the second script stands so many lines further down. -/
def unmark (lines marked : Nat) : Nat :=
  marked / 2 + if marked % 2 = 1 then lines else 0

theorem unmark_mark_false (lines : Nat) : unmark lines ∘ mark false = id := by
  funext line
  simp [unmark, mark]

theorem unmark_mark_true (lines : Nat) : unmark lines ∘ mark true = (· + lines) := by
  funext line
  have half : (2 * line + 1) / 2 = line := by omega
  have odd : (2 * line + 1) % 2 = 1 := by omega
  simp [unmark, mark, half, odd]

/-- What is seen of a run on marked lines. -/
def MarkedAnswer.ofRun (printed : String) : Option Interrupt → MarkedAnswer
  | some (.runtime error) =>
    ⟨⟨printed, some (.interrupted (.runtime { error with line := error.line / 2 }))⟩,
      error.line % 2 = 1⟩
  | interrupt => ⟨⟨printed, interrupt.map RunFailure.interrupted⟩, false⟩

theorem MarkedAnswer.lowered_ofRun (lines : Nat) (printed : String) (interrupt : Option Interrupt) :
    (ofRun printed interrupt).lowered lines =
      ⟨printed, (interrupt.map (Interrupt.relined (unmark lines))).map RunFailure.interrupted⟩ := by
  cases interrupt with
  | none => rfl
  | some interrupt =>
      cases interrupt with
      | output fault => rfl
      | exhausted => rfl
      | runtime error =>
          by_cases odd : error.line % 2 = 1
          · simp [ofRun, lowered, RunFailure.lowered, Interrupt.relined, unmark, odd]
          · simp [ofRun, lowered, Interrupt.relined, unmark, odd]

theorem MarkedAnswer.lowered_zero (marked : MarkedAnswer) :
    marked.lowered 0 = marked.answer := by
  obtain ⟨⟨printed, failure⟩, inSecond⟩ := marked
  have same : failure.map (RunFailure.lowered 0) = failure := by
    cases failure with
    | none => rfl
    | some failure =>
        cases failure with
        | rejected errors => rfl
        | interrupted interrupt => cases interrupt <;> rfl
  cases inSecond with
  | false => rfl
  | true => exact congrArg (Answer.mk printed) same

namespace Lexical

variable {template memory : Memory} {lines : Nat}

/-- The memory is the template, with the second script so many lines further down. -/
abbrev Unmarked (lines : Nat) (template memory : Memory) : Prop :=
  Memory.Relined (unmark lines) template memory

/-- What is seen of a run wherever the second script stands, and from then on, can be
told from the run on marked lines. -/
theorem exists_answers_since (entry : Entry) (allowance : Nat) (marked : List (Stmt Unit))
    {steps : List Step} (further : ∃ answers : List MarkedAnswer, ∀ lines memory,
      Unmarked lines (template.perform (computation entry allowance marked)).1 memory →
        memory.transcript steps = answers.map (MarkedAnswer.lowered lines)) :
    ∃ answers : List MarkedAnswer, ∀ lines memory, Unmarked lines template memory →
      Memory.transcriptSince (memory.perform
          (computation entry allowance (Stmt.allRelined (unmark lines) marked))) memory steps =
        answers.map (MarkedAnswer.lowered lines) := by
  obtain ⟨answers, same⟩ := further
  let ran := template.perform (computation entry allowance marked)
  let printed := ran.1.console.textFrom template.console.lines.size
  refine ⟨.ofRun printed ran.2 :: answers, fun lines memory memories => ?_⟩
  obtain ⟨interrupt, later⟩ := memories.perform (relined_computation entry allowance marked)
  rw [Memory.transcriptSince, Memory.answerSince, same lines _ later, interrupt, later.console,
    memories.console, List.map_cons, MarkedAnswer.lowered_ofRun]

/-- The answers of the same steps, wherever the second script stands. -/
theorem exists_answers (template : Memory) (steps : List Step) : ∃ answers : List MarkedAnswer,
    ∀ lines memory, Unmarked lines template memory →
      memory.transcript steps = answers.map (MarkedAnswer.lowered lines) := by
  induction steps generalizing template with
  | nil => exact ⟨[], fun _ _ _ => rfl⟩
  | cons step rest ih =>
      cases step with
      | clock clock =>
          obtain ⟨answers, same⟩ := ih { template with clock := clock }
          exact ⟨answers, fun lines memory memories =>
            same lines _ { memories with clock := rfl }⟩
      | enter allowance entry source =>
          cases errors : Session.start.errors entry source with
          | cons first more =>
              obtain ⟨answers, same⟩ := ih template
              refine ⟨⟨⟨"", some (.rejected (first :: more))⟩, false⟩ :: answers,
                fun lines memory memories => ?_⟩
              rw [Memory.transcript, errors, List.map_cons, ← same lines memory memories]
              rfl
          | nil =>
              -- A later text is no part of the second script, so it is not marked.
              let program := (Program.ofSource (entry = .line) source).statements
              obtain ⟨answers, same⟩ := exists_answers_since entry allowance
                (Stmt.allRelined (mark false) program) (ih _)
              refine ⟨answers, fun lines memory memories => ?_⟩
              have seen := same lines memory memories
              rw [Stmt.allRelined_allRelined, unmark_mark_false, Stmt.allRelined_id] at seen
              rw [Memory.transcript, errors, ← seen]
              rfl

/-! ## Two scripts as one -/

/-- A row of statements and then another one are run one after the other. -/
theorem interpret_append (allowance : Nat) (program more : List (Stmt Unit)) :
    interpret allowance (program ++ more) =
      interpret allowance program >>= fun _ => interpret allowance more := by
  induction program with
  | nil => rfl
  | cons first rest ih =>
      rw [List.cons_append, interpret, interpret, bind_assoc]
      exact congrArg _ (funext fun _ => ih)

theorem Memory.perform_append (memory : Memory) (allowance : Nat)
    (program more : List (Stmt Unit)) :
    memory.perform (interpret allowance (program ++ more)) =
      match memory.perform (interpret allowance program) with
      | (later, none) => later.perform (interpret allowance more)
      | stopped => stopped := by
  rw [interpret_append]
  simp only [perform, EStateM.run, bind, EStateM.bind]
  cases interpret allowance program memory <;> rfl

variable {session : Session} {first second : String} {program more : List (Stmt Unit)}

theorem Memory.run_script (script : Script first program) (memory : Memory) (allowance : Nat) :
    memory.run allowance .script first = memory.perform (interpret allowance program) := by
  have same := script.statements_eq
  subst same
  rfl

theorem Mirrored.run (mirrored : Mirrored session memory) (script : Script first program)
    (allowance : Nat) :
    MirroredRun (session.run allowance first) (memory.perform (interpret allowance program)) := by
  rw [← Memory.run_script script]
  exact mirrored.enter (script.errors_eq_nil session) allowance

/-- Running two scripts is running the statements of both. -/
theorem Mirrored.runBoth (mirrored : Mirrored session memory) (upper : Script first program)
    (lower : Script second more) (allowance : Nat) :
    MirroredRun (session.runBoth allowance first second)
      (memory.perform (interpret allowance (program ++ more))) := by
  have ran := mirrored.run upper allowance
  rw [Session.runBoth, Memory.perform_append]
  generalize session.run allowance first = outcome at ran ⊢
  generalize memory.perform (interpret allowance program) = ran' at ran ⊢
  obtain ⟨later, interrupt⟩ := ran'
  obtain ⟨session', failure⟩ := outcome
  obtain ⟨same, mirrored'⟩ := ran
  cases same
  cases interrupt with
  | none => exact mirrored'.run lower allowance
  | some interrupt => exact ⟨rfl, mirrored'⟩

end Lexical

namespace Session

open Lexical

variable {session : Session} {texts : List Text} {first second : String}

/-- Splitting a script changes nothing but lines.  There are answers to the two
scripts and to all further steps, with a mark on some run-time errors, such that
these answers are seen if the scripts are run one after the other.  If blank lines
stand in front of the second one, the marked errors are so many lines further down,
so they are those at its tokens; and if both are run as one script, they are as many
lines further down as the first script has.

That the second script does not start with `else` need not be said: no script
does. -/
theorem History.split_run (history : session.History texts)
    (upper : session.errors .script first = []) (lower : session.errors .script second = [])
    (allowance : Nat) (steps : List Step) : ∃ answers : List MarkedAnswer,
      transcriptSince (session.runBoth allowance first second) session steps =
          answers.map MarkedAnswer.answer ∧
        (∀ lines, transcriptSince (session.runBoth allowance first (blankLines lines ++ second))
            session steps = answers.map (MarkedAnswer.lowered lines)) ∧
          transcriptSince (session.run allowance (first ++ "\n" ++ second)) session steps =
            answers.map (MarkedAnswer.lowered (lineCount first)) := by
  obtain ⟨memory, mirrored⟩ := exists_mirrored history
  have upper := Script.of_errors_eq_nil upper
  have lower := Script.of_errors_eq_nil lower
  generalize (Program.ofSource false first).statements = program at upper
  generalize (Program.ofSource false second).statements = more at lower
  let template := memory.relined (mark false)
  let marked := Stmt.allRelined (mark false) program ++ Stmt.allRelined (mark true) more
  obtain ⟨answers, same⟩ := exists_answers_since .script allowance marked
    (exists_answers (template.perform _).1 steps)
  have seen (lines : Nat) : Memory.transcriptSince
      (memory.perform (Lexical.interpret allowance
        (program ++ Stmt.allRelined (· + lines) more))) memory steps =
        answers.map (MarkedAnswer.lowered lines) := by
    have unmarked : Stmt.allRelined (unmark lines) marked =
        program ++ Stmt.allRelined (· + lines) more := by
      rw [Stmt.allRelined_append, Stmt.allRelined_allRelined, Stmt.allRelined_allRelined,
        unmark_mark_false, unmark_mark_true, Stmt.allRelined_id]
    rw [← unmarked]
    exact same lines memory (memory.relined_back (unmark_mark_false lines))
  have split (lines : Nat) := (mirrored.transcriptSince_eq
    (mirrored.runBoth upper (lower.belowBlankLines lines) allowance) steps).trans (seen lines)
  refine ⟨answers, ?_, split, ?_⟩
  · have none : blankLines 0 ++ second = second := String.empty_append
    rw [← none, split 0]
    exact List.map_congr_left fun marked _ => marked.lowered_zero
  · exact (mirrored.transcriptSince_eq (mirrored.run (upper.below lower) allowance) steps).trans
      (seen _)

/-- A script of two lines, and one whose function fails whenever it is called. -/
def printingOne : String :=
  "var one=1;\nprint one;"

def failingFunction : String :=
  "fun f()\x7breturn -nil;\x7d"

theorem failingFunction_split_run :
    (start.errors .script printingOne = [] ∧ start.errors .script failingFunction = []) ∧
      (∃ answers : List MarkedAnswer,
        transcriptSince (start.runBoth 100 printingOne failingFunction) start
            [.enter 100 .line "f()"] = answers.map MarkedAnswer.answer ∧
          (∀ lines, transcriptSince
              (start.runBoth 100 printingOne (blankLines lines ++ failingFunction)) start
                [.enter 100 .line "f()"] = answers.map (MarkedAnswer.lowered lines)) ∧
            transcriptSince (start.run 100 (printingOne ++ "\n" ++ failingFunction)) start
                [.enter 100 .line "f()"] =
              answers.map (MarkedAnswer.lowered (lineCount printingOne))) ∧
        ((start.runBoth 100 printingOne failingFunction).1.enter 100 .line "f()").2.map
            RunFailure.message = some "Operand of '-' must be a number.\n[line 1]" ∧
          ((start.run 100 (printingOne ++ "\n" ++ failingFunction)).1.enter 100 .line "f()").2.map
              RunFailure.message = some "Operand of '-' must be a number.\n[line 3]" := by
  have upper : (start.errors .script printingOne).isEmpty = true := by decide +kernel
  have lower : (start.errors .script failingFunction).isEmpty = true := by decide +kernel
  have upper := List.isEmpty_iff.1 upper
  have lower := List.isEmpty_iff.1 lower
  exact ⟨⟨upper, lower⟩, (History.start {} (.ticking 0)).split_run upper lower 100 _, by decide +kernel,
    by decide +kernel⟩

end Session

end Lox
