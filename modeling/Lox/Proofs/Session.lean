/-
# What a session takes on

A session accepts a text if there is nothing wrong with it (`accepted?`).  Only
then anything is run; a text that is rejected leaves the machine as it is
(`Session.enter_accepted` and `Session.enter_rejected`).

A history is a row of texts that were entered one after the other.  Whatever
became of them, all accepted texts of a history have references of their own,
and the distances of these stay as they were recorded (`Session.Knows`).
-/

import Lox.Proofs.Execution
import Lox.Proofs.Numbering.Statement
import Lox.Proofs.Visits
import Lox.Session

namespace Lox

/-- What is run of an accepted text.  A line that is one expression prints its
value. -/
def Entry.computation (entry : Entry) (distances : Distances) (allowance : Nat)
    (program : List (Stmt Reference)) : Execution Unit :=
  match entry, program with
  | .line, [.expression expr] => do
    let value ← evaluate distances allowance expr
    Execution.print value
  | _, _ => interpret distances allowance program

open Execution

theorem stays_computation {distances : Distances} (entry : Entry) (allowance : Nat)
    (program : List (Stmt Reference)) :
    Stays true (entry.computation distances allowance program) := by
  unfold Entry.computation
  split
  · exact (stays_evaluate allowance _).opening.bind fun _ => stays_print _
  · exact stays_interpret allowance _

namespace Session

/-- The statements of a text with references that are new to the session. -/
def program (session : Session) (entry : Entry) (source : String) : List (Stmt Reference) :=
  (session.read entry source).1.statements

/-- A text as it is analysed by a session. -/
def text (session : Session) (entry : Entry) (source : String) : Text :=
  ⟨session.distances, session.program entry source⟩

/-- All errors for which a text may be rejected.  Those of the scopes count only
if there are no others. -/
def errors (session : Session) (entry : Entry) (source : String) : List StaticError :=
  match lexicalErrorsOf source ++ (Program.ofSource (entry = .line) source).errors with
  | [] => (session.text entry source).last.errors
  | first :: more => first :: more

/-- The text that a session runs, if there is nothing wrong with it. -/
def accepted? (session : Session) (entry : Entry) (source : String) : Option Text :=
  if (session.errors entry source).isEmpty then some (session.text entry source) else none

/-- The session in which an accepted text is run. -/
def analysed (session : Session) (entry : Entry) (source : String) : Session where
  machine := session.machine
  distances := (session.text entry source).last.distances
  nextReference := (session.read entry source).2.nextReference

variable {session : Session} {entry : Entry} {source : String} {text : Text}

section Read

variable (session entry source)

/-- Whatever the numbers are, what is read is the text without labels. -/
theorem unlabelled_read : Labelled.unlabelled (session.read entry source).1 =
    Program.ofSource (entry = .line) source :=
  (Program.numbers_read (entry = .line) (tokensOf source)).agrees session.nextReference

theorem unlabelled_program : Stmt.allUnlabelled (session.program entry source) =
    (Program.ofSource (entry = .line) source).statements :=
  congrArg LabelledProgram.statements (session.unlabelled_read entry source)

theorem errors_read : (session.read entry source).1.errors =
    (Program.ofSource (entry = .line) source).errors :=
  congrArg LabelledProgram.errors (session.unlabelled_read entry source)

/-- The numbers of a text are drawn while it is read. -/
theorem draws_program : Draws [] session.nextReference
    (session.analysed entry source).nextReference (session.text entry source).labels :=
  (Program.numbers_read (entry = .line) (tokensOf source)).draws session.nextReference

end Read

theorem accepted?_eq_some : session.accepted? entry source = some text ↔
    session.errors entry source = [] ∧ session.text entry source = text := by
  rw [accepted?]
  split
  · next empty =>
      rw [List.isEmpty_iff.1 empty]
      simp
  · next filled =>
      rw [List.isEmpty_iff] at filled
      simp [filled]

theorem perform_computation (session : Session) (entry : Entry) (allowance : Nat)
    (program : List (Stmt Reference)) :
    (match entry, program with
      | .line, [.expression expr] => session.printValue allowance expr
      | _, _ => session.execute allowance program) =
      session.perform (entry.computation session.distances allowance program) := by
  unfold Entry.computation
  split
  · rfl
  · rfl

/-- What becomes of a text. -/
theorem enter_eq (session : Session) (allowance : Nat) (entry : Entry) (source : String) :
    session.enter allowance entry source =
      match lexicalErrorsOf source ++ (Program.ofSource (entry = .line) source).errors with
      | first :: more =>
        ({ session with nextReference := (session.analysed entry source).nextReference },
          some (.rejected (first :: more)))
      | [] =>
        match (session.text entry source).last.errors with
        | first :: more => (session.analysed entry source, some (.rejected (first :: more)))
        | [] => (session.analysed entry source).perform
            (entry.computation (session.analysed entry source).distances allowance
              (session.program entry source)) := by
  have reads : session.read entry source = (⟨session.program entry source,
        (Program.ofSource (entry = .line) source).errors⟩,
      { session with nextReference := (session.analysed entry source).nextReference }) := by
    rw [← session.errors_read entry source]
    rfl
  have resolved : ({ session with
      nextReference := (session.analysed entry source).nextReference } : Session).resolve
        (session.program entry source) =
      ((session.text entry source).last.errors, session.analysed entry source) := rfl
  unfold enter
  rw [reads]
  dsimp only
  cases lexicalErrorsOf source ++ (Program.ofSource (entry = .line) source).errors with
  | cons first more => rfl
  | nil =>
      rw [resolved]
      cases (session.text entry source).last.errors with
      | cons first more => rfl
      | nil => exact perform_computation _ entry allowance _

/-- An accepted text is run. -/
theorem enter_accepted (allowance : Nat) (accepted : session.accepted? entry source = some text) :
    session.enter allowance entry source = (session.analysed entry source).perform
      (entry.computation (session.analysed entry source).distances allowance text.program) := by
  obtain ⟨quiet, rfl⟩ := accepted?_eq_some.1 accepted
  rw [enter_eq]
  rw [errors] at quiet
  split at quiet
  · next clean => rw [clean, quiet]; rfl
  · cases quiet

/-- Of a rejected text nothing is run. -/
theorem enter_rejected (allowance : Nat) (rejected : session.accepted? entry source = none) :
    (session.enter allowance entry source).2 = some (.rejected (session.errors entry source)) ∧
      (session.enter allowance entry source).1.machine = session.machine := by
  rw [enter_eq]
  rw [accepted?, errors] at rejected
  rw [errors]
  split
  · next unread =>
      rw [unread]
      exact ⟨rfl, rfl⟩
  · next clean =>
      rw [clean] at rejected ⊢
      dsimp only at rejected ⊢
      split
      · next misplaced =>
          rw [misplaced]
          exact ⟨rfl, rfl⟩
      · next quiet =>
          rw [quiet] at rejected
          cases rejected

/-- Nothing but the machine changes while something runs. -/
theorem perform_spec {α : Type} (session : Session) (computation : Execution α) :
    (session.perform computation).1.distances = session.distances ∧
      (session.perform computation).1.nextReference = session.nextReference := by
  rw [perform]
  split
  · exact ⟨rfl, rfl⟩
  · exact ⟨rfl, rfl⟩

/-- What a computation ensures of its machine holds of the session behind it. -/
theorem perform_ensures {α : Type} {session : Session} {computation : Execution α}
    (holds : Machine → Prop)
    (ensures : Ensures computation session.machine (fun _ => holds) fun _ => holds) :
    holds (session.perform computation).1.machine := by
  rw [perform, EStateM.run]
  cases ran : computation session.machine with
  | ok value machine => exact ensures.finished ran
  | error interrupt machine => exact ensures.stopped ran

/-- A text leaves the current frame as it was, whatever becomes of the text. -/
theorem current_enter (session : Session) (allowance : Nat) (entry : Entry) (source : String) :
    (session.enter allowance entry source).1.machine.current = session.machine.current := by
  cases accepted : session.accepted? entry source with
  | none => rw [(enter_rejected allowance accepted).2]
  | some text =>
      rw [enter_accepted allowance accepted]
      apply perform_ensures (·.current = session.machine.current)
      exact (stays_computation entry allowance text.program session.machine).mono
        (fun _ _ kept => kept.current) fun _ _ kept => kept.current

theorem error_of_perform {α : Type} {session : Session} {computation : Execution α}
    {interrupt : Interrupt}
    (stopped : (session.perform computation).2 = some (.interrupted interrupt)) :
    ∃ later, computation session.machine = .error interrupt later := by
  rw [perform, EStateM.run] at stopped
  cases ran : computation session.machine with
  | ok value later =>
      rw [ran] at stopped
      cases stopped
  | error interrupt later =>
      rw [ran] at stopped
      cases stopped
      exact ⟨later, rfl⟩

/-- These texts were accepted, their references are not those of later texts,
and the distances of these references are still the ones that were recorded. -/
structure Knows (session : Session) (texts : List Text) : Prop where
  accepted : ∀ text ∈ texts, text.Accepted
  below : ∀ text ∈ texts, ∀ reference ∈ text.labels, reference < session.nextReference
  unknown : ∀ reference, session.nextReference ≤ reference → session.distances[reference]? = none
  kept : ∀ text ∈ texts, ∀ reference ∈ text.labels,
    session.distances[reference]? = text.last.distances[reference]?
  apart : ∀ first ∈ texts, ∀ second ∈ texts, ∀ reference ∈ first.labels,
    reference ∈ second.labels → first = second

namespace Knows

variable {session later : Session} {entry : Entry} {source : String} {text : Text}
  {texts : List Text}

theorem congr (knows : session.Knows texts) (distances : later.distances = session.distances)
    (next : later.nextReference = session.nextReference) : later.Knows texts :=
  ⟨knows.accepted, next ▸ knows.below, next ▸ distances ▸ knows.unknown, distances ▸ knows.kept,
    knows.apart⟩

/-- Numbers that were given away are not given back. -/
theorem numbered (knows : session.Knows texts) (entry : Entry) (source : String) :
    ({ session with nextReference := (session.analysed entry source).nextReference } :
      Session).Knows texts := by
  have ordered := (session.draws_program entry source).ordered
  refine ⟨knows.accepted, fun text listed reference member => ?_, fun reference beyond => ?_,
    knows.kept, knows.apart⟩
  · exact Nat.lt_of_lt_of_le (knows.below text listed reference member) ordered
  · exact knows.unknown reference (Nat.le_trans ordered beyond)

/-- A text that is analysed changes no distance but those of its own
references. -/
theorem distances_analysed (entry : Entry) (source : String) {reference : Nat}
    (other : reference < session.nextReference ∨
      (session.analysed entry source).nextReference ≤ reference) :
    (session.analysed entry source).distances[reference]? = session.distances[reference]? := by
  have adds := Analysis.adds_stmts (session.text entry source).start
    (session.program entry source)
  apply adds.distances
  intro name member
  have inside := (session.draws_program entry source).mem (List.mem_map_of_mem member)
  rcases other with before | behind
  · exact Nat.not_lt.2 inside.1 before
  · exact Nat.not_lt.2 behind inside.2

theorem analysed (knows : session.Knows texts) (entry : Entry) (source : String) :
    (session.analysed entry source).Knows texts := by
  have numbered := knows.numbered entry source
  refine ⟨knows.accepted, numbered.below, fun reference beyond => ?_,
    fun text listed reference member => ?_, knows.apart⟩
  · rw [distances_analysed entry source (.inr beyond)]
    exact numbered.unknown reference beyond
  · rw [distances_analysed entry source (.inl (knows.below text listed reference member))]
    exact knows.kept text listed reference member

/-- What is read of a source is made of words that the source spells. -/
theorem shaped_program (session : Session) (entry : Entry) (source : String) :
    Stmt.AllShaped Token.WellSpelled (session.program entry source) := by
  rw [← Stmt.allShaped_unlabelled, unlabelled_program]
  exact shaped_ofTokens _ fun token member => wellSpelled_of_mem_tokensOf member

theorem accept (knows : session.Knows texts)
    (accepted : session.accepted? entry source = some text) :
    (session.analysed entry source).Knows (text :: texts) := by
  obtain ⟨quiet, rfl⟩ := accepted?_eq_some.1 accepted
  have drawn := session.draws_program entry source
  have before := knows.analysed entry source
  have isAccepted : (session.text entry source).Accepted := by
    refine ⟨shaped_program session entry source, drawn.nodup, fun reference member => ?_, ?_⟩
    · exact knows.unknown reference (drawn.mem member).1
    · rw [errors] at quiet
      split at quiet
      · exact quiet
      · cases quiet
  have new (other : Text) (listed : other ∈ texts) (reference : Nat)
      (own : reference ∈ (session.text entry source).labels) (member : reference ∈ other.labels) :
      False :=
    Nat.not_lt.2 (drawn.mem own).1 (knows.below other listed reference member)
  refine ⟨List.forall_mem_cons.2 ⟨isAccepted, before.accepted⟩,
    List.forall_mem_cons.2 ⟨fun reference member => (drawn.mem member).2, before.below⟩,
    before.unknown, List.forall_mem_cons.2 ⟨fun _ _ => rfl, before.kept⟩,
    fun first isFirst second isSecond reference here there => ?_⟩
  rcases List.mem_cons.1 isFirst with rfl | isFirst
  · rcases List.mem_cons.1 isSecond with rfl | isSecond
    · rfl
    · exact (new second isSecond reference here there).elim
  · rcases List.mem_cons.1 isSecond with rfl | isSecond
    · exact (new first isFirst reference there here).elim
    · exact knows.apart first isFirst second isSecond reference here there

/-- An accepted text is walked through from the top level. -/
theorem visited (knows : session.Knows texts) (listed : text ∈ texts) :
    Visited texts text.start (.stmts text.program) :=
  ⟨text, listed, knows.accepted text listed, .program⟩

/-- Whatever becomes of a text, the texts before it stay known. -/
theorem enter (knows : session.Knows texts) (allowance : Nat) (entry : Entry) (source : String) :
    (session.enter allowance entry source).1.Knows
      ((session.accepted? entry source).toList ++ texts) := by
  cases accepted : session.accepted? entry source with
  | some text =>
      have ⟨distances, next⟩ := perform_spec (session.analysed entry source)
        (entry.computation (session.analysed entry source).distances allowance text.program)
      rw [enter_accepted allowance accepted]
      exact (knows.accept accepted).congr distances next
  | none =>
      rw [accepted?, errors] at accepted
      rw [enter_eq]
      split
      · exact knows.numbered entry source
      · next clean =>
          split
          · exact knows.analysed entry source
          · next quiet =>
              rw [clean, quiet] at accepted
              cases accepted

end Knows

/-- A session that has come about by entering texts, with those that it
accepted, the latest one first.  Texts may be rejected or interrupted in
between, and the clock may be set. -/
inductive History : Session → List Text → Prop where
  | start (limits : ConsoleLimits) (clock : Clock) : History (start limits clock) []
  | withClock {session : Session} {texts : List Text} (history : History session texts)
      (clock : Clock) : History (session.withClock clock) texts
  | enter {session : Session} {texts : List Text} (history : History session texts)
      (allowance : Nat) (entry : Entry) (source : String) :
      History (session.enter allowance entry source).1
        ((session.accepted? entry source).toList ++ texts)

theorem History.knows {session : Session} {texts : List Text} (history : session.History texts) :
    session.Knows texts := by
  induction history with
  | start => exact ⟨nofun, nofun, fun _ _ => Std.TreeMap.getElem?_emptyc, nofun, nofun⟩
  | withClock _ clock ih => exact ih.congr rfl rfl
  | enter _ allowance entry source ih => exact ih.enter allowance entry source

/-- Between the texts of a session the current frame is that of the globals. -/
theorem History.current {session : Session} {texts : List Text} (history : session.History texts) :
    session.machine.current = Machine.globals := by
  induction history with
  | start => rfl
  | withClock _ _ ih => exact ih
  | enter _ allowance entry source ih => rw [current_enter, ih]

end Session

end Lox
