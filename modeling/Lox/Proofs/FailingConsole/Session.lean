/-
# An output failure only cuts a run short

The same text is entered in two sessions that differ only in their consoles: one
cannot fail, and the other one fails in one way after so many lines.  If the first
session prints no more lines, nothing tells them apart.  Otherwise the second one
stops at the first line too many, with a failure of the output and never with one
of the text or of the program; what it has printed by then is what the first one
has printed so far (`Session.output_failure_cuts_short`).
-/

import Lox.Proofs.FailingConsole.Moments

namespace Lox

open Execution

namespace Session

/-- The same session with other limits of its console. -/
def limited (session : Session) (limits : ConsoleLimits) : Session :=
  { session with machine := session.machine.limited limits }

/-- The lines that a session has printed since an earlier moment of it, one for each
printed value. -/
def linesSince (session earlier : Session) : List String :=
  session.machine.console.lines.toList.drop earlier.machine.console.lines.size

variable {session : Session} {fault : OutputFault} {flushes allowance : Nat} {entry : Entry}
  {source : String} {moment : Moment}

/-- What becomes of a text on a console that cannot fail, and on one that fails in
this way after so many flushes. -/
structure CutShort (fault : OutputFault) (flushes : Nat) (session : Session)
    (healthy failing : Session × Option RunFailure) : Prop where
  prints : session.machine.Prints healthy.1.machine
  noOutput : ∀ other, healthy.2 ≠ some (.interrupted (.output other))
  alike : healthy.1.machine.console.flushed ≤ flushes →
    failing = (healthy.1.limited (fault.after flushes), healthy.2)
  failure : flushes < healthy.1.machine.console.flushed →
    failing.2 = some (.interrupted (.output fault))
  lines : flushes < healthy.1.machine.console.flushed →
    failing.1.machine.console.lines.toList <+: healthy.1.machine.console.lines.toList
  count : flushes < healthy.1.machine.console.flushed →
    failing.1.machine.console.lines.size + session.machine.console.flushed =
      session.machine.console.lines.size + fault.written flushes

/-- Where nothing is run, both sessions end alike. -/
theorem CutShort.of_console_eq {later : Session} {failure : Option RunFailure}
    (unlimited : session.machine.console.limits = {})
    (enough : session.machine.console.flushed ≤ flushes)
    (same : later.machine.console = session.machine.console)
    (noOutput : ∀ other, failure ≠ some (.interrupted (.output other))) :
    CutShort fault flushes session (later, failure)
      (later.limited (fault.after flushes), failure) := by
  have notBeyond {p : Prop} (beyond : flushes < later.machine.console.flushed) : p :=
    absurd (same ▸ enough) (Nat.not_le.2 beyond)
  exact ⟨.of_console_eq unlimited same, noOutput, fun _ => rfl, notBeyond, notBeyond, notBeyond⟩

theorem perform_cutShort {α : Type} {computation : Execution α}
    (cut : Execution.Cut fault computation) (unlimited : session.machine.console.limits = {})
    (enough : session.machine.console.flushed ≤ flushes) :
    CutShort fault flushes session (session.perform computation)
      ((session.limited (fault.after flushes)).perform computation) := by
  have cuts := cut flushes session.machine unlimited enough
  rw [perform, perform, EStateM.run, EStateM.run, limited]
  generalize computation session.machine = outcome at cuts ⊢
  generalize computation (session.machine.limited (fault.after flushes)) = outcome' at cuts ⊢
  cases cuts with
  | alike prints enough =>
      have notBeyond {p : Prop}
          (beyond : flushes < (machineOf outcome).console.flushed) : p :=
        absurd enough (Nat.not_le.2 beyond)
      cases outcome with
      | ok value later =>
          refine ⟨prints, fun _ same => ?_, fun _ => rfl, notBeyond, notBeyond, notBeyond⟩
          cases same
      | error interrupt later =>
          refine ⟨prints.1, fun other same => ?_, fun _ => rfl, notBeyond, notBeyond, notBeyond⟩
          cases same
          exact prints.2 other rfl
  | cut prints beyond lines count =>
      cases outcome with
      | ok value later =>
          refine ⟨prints, fun _ same => ?_, fun enough => absurd enough (Nat.not_le.2 beyond),
            fun _ => rfl, fun _ => lines, fun _ => count⟩
          cases same
      | error interrupt later =>
          refine ⟨prints.1, fun other same => ?_,
            fun enough => absurd enough (Nat.not_le.2 beyond), fun _ => rfl, fun _ => lines,
            fun _ => count⟩
          cases same
          exact prints.2 other rfl

theorem cut_computation {distances : Distances} (entry : Entry) (allowance : Nat)
    (program : List (Stmt Reference)) :
    Execution.Cut fault (entry.computation distances allowance program) := by
  unfold Entry.computation
  split
  · exact (cut_evaluate allowance _).bind fun _ => cut_print _
  · exact cut_interpret allowance _

/-- Every printed line is flushed once. -/
theorem flushed_eq (session later : Session) (prints : session.machine.Prints later.machine) :
    later.machine.console.flushed =
      session.machine.console.flushed + (later.linesSince session).length := by
  have count := prints.count
  have more := prints.lines.length_le
  rw [Array.length_toList, Array.length_toList] at more
  rw [linesSince, List.length_drop, Array.length_toList]
  omega

/-- A text that is entered is cut short. -/
theorem enter_cutShort (unlimited : session.machine.console.limits = {})
    (enough : session.machine.console.flushed ≤ flushes) (allowance : Nat) (entry : Entry)
    (source : String) :
    CutShort fault flushes session (session.enter allowance entry source)
      ((session.limited (fault.after flushes)).enter allowance entry source) := by
  -- A text is read and analysed without a look at the console.
  have text : (session.limited (fault.after flushes)).text entry source =
    session.text entry source := rfl
  have analysed : (session.limited (fault.after flushes)).analysed entry source =
    (session.analysed entry source).limited (fault.after flushes) := rfl
  rw [enter_eq, enter_eq, text, analysed]
  cases lexicalErrorsOf source ++ (Program.ofSource (entry = .line) source).errors with
  | cons first more => exact .of_console_eq unlimited enough rfl nofun
  | nil =>
      cases (session.text entry source).last.errors with
      | cons first more => exact .of_console_eq unlimited enough rfl nofun
      | nil =>
          let analysed := session.analysed entry source
          have cut : Execution.Cut fault
              (entry.computation analysed.distances allowance (session.program entry source)) :=
            cut_computation entry allowance (session.program entry source)
          have performed : CutShort fault flushes analysed (analysed.perform _) _ :=
            perform_cutShort cut unlimited enough
          exact ⟨performed.prints, performed.noOutput, performed.alike, performed.failure,
            performed.lines, performed.count⟩

/-- On the console that fails, a run comes to the moments of the other one until too
many lines have been printed. -/
theorem comesTo_limited_iff (unlimited : session.machine.console.limits = {})
    (enough' : session.machine.console.flushed ≤ flushes) :
    (session.limited (fault.after flushes)).ComesTo allowance entry source moment ↔
      ∃ other, session.ComesTo allowance entry source other ∧
        other.machine.console.flushed ≤ flushes ∧
          moment = other.limited (fault.after flushes) := by
  -- Both sessions begin to run the same program, with the same distances.
  constructor
  · rintro ⟨first, starts, reaches⟩
    have starts : entry.Starts (session.analysed entry source).distances allowance
      (session.program entry source) (session.machine.limited (fault.after flushes)) first := starts
    obtain ⟨start, began, enough, rfl⟩ := (entry.starts_limited_iff unlimited enough').1 starts
    have unlimited' := (began.prints unlimited).unlimited
    obtain ⟨other, reaches, found⟩ := (Moment.reaches_limited_iff unlimited' enough).1 reaches
    exact ⟨other, ⟨start, began, reaches⟩, found⟩
  · rintro ⟨other, ⟨first, starts, reaches⟩, enough, rfl⟩
    have unlimited' := (starts.prints unlimited).unlimited
    have before := Nat.le_trans (reaches.prints unlimited').flushed_le enough
    exact ⟨first.limited _,
      (entry.starts_limited_iff unlimited enough').2 ⟨first, starts, before, rfl⟩,
      (Moment.reaches_limited_iff unlimited' before).2 ⟨other, reaches, enough, rfl⟩⟩

/-- An output failure only cuts a run short.  The text is entered on a console that
cannot fail, and on one that fails in this way once `n` more lines have been flushed.

* If the first session prints at most `n` lines, both end alike: they differ in
  nothing but the limits of their consoles.
* Otherwise the second one has written the first `n` of these lines, and one more if
  it is the flush that fails, and it is stopped by the fault of its console; the exit
  code is 74.
* The first session never fails in this way.
* The second session comes to the moments to which the first one comes as long as at
  most `n` lines have been flushed, and to no others. -/
theorem output_failure_cuts_short (session : Session) (allowance : Nat) (entry : Entry)
    (source : String) (fault : OutputFault) (n : Nat) :
    let limits := fault.after (session.machine.console.flushed + n)
    let healthy := (session.limited {}).enter allowance entry source
    let failing := (session.limited limits).enter allowance entry source
    let lines := healthy.1.linesSince session
    (lines.length ≤ n → failing = (healthy.1.limited limits, healthy.2)) ∧
      (n < lines.length →
        failing.1.linesSince session = lines.take (fault.written n) ∧
          failing.2 = some (.interrupted (.output fault)) ∧
            failing.2.map RunFailure.exitCode = some 74) ∧
      (∀ other, healthy.2 ≠ some (.interrupted (.output other))) ∧
      ∀ moment, (session.limited limits).ComesTo allowance entry source moment ↔
        ∃ other, (session.limited {}).ComesTo allowance entry source other ∧
          other.machine.console.flushed ≤ session.machine.console.flushed + n ∧
            moment = other.limited limits := by
  intro limits healthy failing lines
  have enough : (session.limited {}).machine.console.flushed ≤
      session.machine.console.flushed + n := Nat.le_add_right _ _
  have short : CutShort fault _ (session.limited {}) healthy failing :=
    enter_cutShort rfl enough allowance entry source
  have printed : healthy.1.machine.console.flushed =
      session.machine.console.flushed + lines.length :=
    flushed_eq (session.limited {}) healthy.1 short.prints
  refine ⟨fun few => short.alike (by omega), fun many => ?_, short.noOutput,
    fun moment => comesTo_limited_iff rfl enough⟩
  have beyond : session.machine.console.flushed + n < healthy.1.machine.console.flushed := by omega
  refine ⟨?_, short.failure beyond, by rw [short.failure beyond]; rfl⟩
  have size : failing.1.machine.console.lines.size =
      session.machine.console.lines.size + fault.written n := by
    have count := short.count beyond
    rw [OutputFault.written_add] at count
    have same : (session.limited {}).machine.console.flushed = session.machine.console.flushed :=
      rfl
    have same' : (session.limited {}).machine.console.lines.size =
      session.machine.console.lines.size := rfl
    omega
  have taken := List.prefix_iff_eq_take.1 (short.lines beyond)
  rw [Array.length_toList, size] at taken
  rw [linesSince, taken, List.drop_take, Nat.add_sub_cancel_left]
  rfl

/-- A text that prints in calls inside calls. -/
def countdown : String :=
  "fun f(n)\x7bif(n>0)\x7bprint n;return f(n-1);\x7d\x7dprint f(3);"

theorem countdown_cut_short :
    let healthy := (start.limited {}).enter 100 .script countdown
    let failing := (start.limited (OutputFault.flushFailed.after 1)).enter 100 .script countdown
    healthy.1.linesSince start = ["3", "2", "1", "nil"] ∧ healthy.2.isNone ∧
      failing.1.linesSince start = ["3", "2"] ∧
        failing.2.map RunFailure.exitCode = some 74 := by
  intro healthy failing
  have lines : healthy.1.linesSince start = ["3", "2", "1", "nil"] := by decide +kernel
  have many : 1 < (healthy.1.linesSince start).length := by rw [lines]; decide
  have cut := (output_failure_cuts_short start 100 .script countdown .flushFailed 1).2.1 many
  exact ⟨lines, by decide +kernel, cut.1.trans (by rw [lines]; rfl), cut.2.2⟩

end Session

end Lox
