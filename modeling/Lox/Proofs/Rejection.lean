/-
# A rejected text leaves no trace

A text that is rejected is read, and if it reads well it is analysed too.  So it
uses up numbers of references, and distances that were recorded in it stay
recorded although none of its statements is ever run.  Nothing of this can be
seen: the text prints nothing, and whatever is entered behind it prints the same
and fails in the same way as if the text had never been there
(`Session.History.rejected_leaves_no_trace`).
-/

import Lox.Proofs.Transcript

namespace Lox

namespace Session

variable {session : Session} {texts : List Text} {entry : Entry} {source : String}

/-- A rejected text prints nothing, and the transcript of all further steps is the
one that the session had without it. -/
theorem History.rejected_leaves_no_trace (history : session.History texts) {allowance : Nat}
    {errors : List StaticError}
    (rejected : (session.enter allowance entry source).2 = some (.rejected errors))
    (steps : List Step) :
    (session.enter allowance entry source).1.printedSince session = "" ∧
      (session.enter allowance entry source).1.transcript steps = session.transcript steps := by
  have notAccepted := accepted?_eq_none_of_rejected rejected
  obtain ⟨_, same⟩ := enter_rejected allowance notAccepted
  obtain ⟨memory, mirrored⟩ := Lexical.exists_mirrored history
  refine ⟨printedSince_of_machine_eq same, ?_⟩
  -- One memory mirrors both sessions, because the machine is the same.
  rw [(mirrored.reject notAccepted allowance).transcript_eq steps, mirrored.transcript_eq steps]

/-- A session that keeps a function with a variable of its own. -/
def counterSession : Session :=
  (start.enter 100 .script "fun f()\x7bvar a=1;fun g()\x7breturn a;\x7dreturn g;\x7dvar h=f();").1

/-- A text whose first reference gets a distance, and which then declares a name
twice. -/
def declaredTwice : String :=
  "\x7bvar b=1;print b;var b=2;\x7d"

theorem declaredTwice_leaves_no_trace :
    (counterSession.enter 100 .line declaredTwice).2 =
        some (.rejected (counterSession.errors .line declaredTwice)) ∧
      (counterSession.enter 100 .line declaredTwice).1.nextReference ≠
        counterSession.nextReference ∧
      (counterSession.enter 100 .line declaredTwice).1.distances.size ≠
        counterSession.distances.size ∧
      (counterSession.enter 100 .line declaredTwice).1.printedSince counterSession = "" ∧
      (counterSession.enter 100 .line declaredTwice).1.transcript
          [.enter 100 .line "h()", .enter 100 .script "print b;"] =
        counterSession.transcript [.enter 100 .line "h()", .enter 100 .script "print b;"] := by
  have history := (History.start {} (.ticking 0)).enter 100 .script
    "fun f()\x7bvar a=1;fun g()\x7breturn a;\x7dreturn g;\x7dvar h=f();"
  have faulty : (counterSession.errors .line declaredTwice).isEmpty = false := by decide +kernel
  have notAccepted : counterSession.accepted? .line declaredTwice = none := by
    rw [accepted?, faulty]
    rfl
  have rejected := (enter_rejected 100 notAccepted).1
  exact ⟨rejected, by decide +kernel, by decide +kernel,
    history.rejected_leaves_no_trace rejected _⟩

end Session

end Lox
