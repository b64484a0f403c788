/-
# Transcripts of sessions

A transcript is what is seen of a session from outside while texts are entered
one after the other: what each of them printed, and how it failed if it failed.

A session that is mirrored by a memory has the transcript of that memory, whatever
numbers and distances it has recorded (`Lexical.Mirrored.transcript_eq`).  So two
sessions that are mirrored by one memory cannot be told apart.
-/

import Lox.Proofs.Lexical.Session
import Lox.Proofs.Verdict

namespace Lox

/-- What is done with a session: its clock is set, or a text is entered. -/
inductive Step where
  | clock (clock : Clock)
  | enter (allowance : Nat) (entry : Entry) (source : String)

/-- What is seen of a text that was entered. -/
structure Answer where
  printed : String
  failure : Option RunFailure

namespace Session

/-- What is seen of a session since an earlier moment of it. -/
def answerSince (outcome : Session × Option RunFailure) (earlier : Session) : Answer :=
  ⟨outcome.1.printedSince earlier, outcome.2⟩

/-- What is seen of the texts that are entered, one after the other. -/
def transcript (session : Session) : List Step → List Answer
  | [] => []
  | .clock clock :: rest => (session.withClock clock).transcript rest
  | .enter allowance entry source :: rest =>
    let outcome := session.enter allowance entry source
    answerSince outcome session :: outcome.1.transcript rest

/-- What is seen of a session since an earlier moment of it, and from then on. -/
def transcriptSince (outcome : Session × Option RunFailure) (earlier : Session)
    (steps : List Step) : List Answer :=
  answerSince outcome earlier :: outcome.1.transcript steps

variable {session : Session} {entry : Entry} {source : String} {text : Text}

/-- Where nothing was run, nothing is printed. -/
theorem printedSince_of_machine_eq {later : Session} (same : later.machine = session.machine) :
    later.printedSince session = "" := by
  rw [printedSince, same, Console.textFrom, ← Array.length_toList, List.drop_length, List.foldl_nil]

/-- A text that is accepted is not rejected. -/
theorem accepted?_eq_none_of_rejected {allowance : Nat} {errors : List StaticError}
    (rejected : (session.enter allowance entry source).2 = some (.rejected errors)) :
    session.accepted? entry source = none := by
  cases accepted : session.accepted? entry source with
  | none => rfl
  | some text =>
      rw [enter_accepted allowance accepted, perform] at rejected
      split at rejected
      · cases rejected
      · cases rejected

end Session

namespace Lexical

namespace Memory

/-- What is seen of a run since an earlier moment of its memory. -/
def answerSince (outcome : Memory × Option Interrupt) (earlier : Memory) : Answer :=
  ⟨outcome.1.console.textFrom earlier.console.lines.size, outcome.2.map RunFailure.interrupted⟩

/-- What is seen of a memory on which the texts are run that a session accepts. -/
def transcript (memory : Memory) : List Step → List Answer
  | [] => []
  | .clock clock :: rest => transcript { memory with clock := clock } rest
  | .enter allowance entry source :: rest =>
    match Session.start.errors entry source with
    | [] =>
      let outcome := memory.run allowance entry source
      answerSince outcome memory :: outcome.1.transcript rest
    | first :: more => ⟨"", some (.rejected (first :: more))⟩ :: memory.transcript rest

/-- What is seen of a run since an earlier moment of its memory, and from then on. -/
def transcriptSince (outcome : Memory × Option Interrupt) (earlier : Memory)
    (steps : List Step) : List Answer :=
  answerSince outcome earlier :: outcome.1.transcript steps

end Memory

variable {session : Session} {memory : Memory}

namespace Mirrored

/-- Since a moment at which a memory mirrors it, a session has printed what a run on
the memory has printed that mirrors it again. -/
theorem answerSince_eq {outcome : Session × Option RunFailure} {ran : Memory × Option Interrupt}
    (mirrored : Mirrored session memory) (run : MirroredRun outcome ran) :
    Session.answerSince outcome session = Memory.answerSince ran memory := by
  obtain ⟨_, _, _, _, mirrors⟩ := mirrored
  obtain ⟨same, _, _, _, _, mirrors'⟩ := run
  rw [Session.answerSince, Session.printedSince, Memory.answerSince, same, mirrors.console,
    mirrors'.console]

/-- A session that is mirrored by a memory has the transcript of the memory. -/
theorem transcript_eq (mirrored : Mirrored session memory) (steps : List Step) :
    session.transcript steps = memory.transcript steps := by
  induction steps generalizing session memory with
  | nil => rfl
  | cons step rest ih =>
      cases step with
      | clock clock => exact ih (mirrored.withClock clock)
      | enter allowance entry source =>
          rw [Session.transcript, Memory.transcript, Session.errors_eq session .start]
          dsimp only
          split
          · next quiet =>
              have run := mirrored.enter quiet allowance
              rw [ih run.2, mirrored.answerSince_eq run]
          · next first more found =>
              have rejected : session.accepted? entry source = none := by
                rw [Session.accepted?, found]
                rfl
              obtain ⟨outcome, same⟩ := Session.enter_rejected allowance rejected
              rw [ih (mirrored.reject rejected allowance), Session.answerSince,
                Session.printedSince_of_machine_eq same, outcome, found]

theorem transcriptSince_eq {outcome : Session × Option RunFailure}
    {ran : Memory × Option Interrupt} (mirrored : Mirrored session memory)
    (run : MirroredRun outcome ran) (steps : List Step) :
    Session.transcriptSince outcome session steps = Memory.transcriptSince ran memory steps := by
  rw [Session.transcriptSince, Memory.transcriptSince, mirrored.answerSince_eq run,
    run.2.transcript_eq steps]

end Mirrored

/-- Between its texts a session is mirrored by a memory. -/
theorem exists_mirrored {texts : List Text} (history : session.History texts) :
    ∃ memory, Mirrored session memory := by
  obtain ⟨memory, accompanies⟩ := Accompanies.exists_of_history history
  exact ⟨memory, accompanies.mirrors⟩

end Lexical

end Lox
