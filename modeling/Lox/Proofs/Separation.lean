/-
# The references of different texts never meet

Whatever becomes of a text, its references have numbers of their own: texts that are
rejected and texts that cannot be read use up numbers as well.  So the analysis of a
text records distances of the references of this text only, each of them once, and
what is known of a reference, a distance or none, stays as it was when its text was
entered (`Session.references_never_meet`).
-/

import Lox.Proofs.Transcript
import Lox.Proofs.Visits.Recording

namespace Lox

namespace Session

/-- A session after one step. -/
def step (session : Session) : Step → Session
  | .clock clock => session.withClock clock
  | .enter allowance entry source => (session.enter allowance entry source).1

/-- A session after some steps. -/
def after (session : Session) (steps : List Step) : Session :=
  steps.foldl step session

/-- The texts that a session reads in some steps, whatever becomes of them. -/
def texts (session : Session) : List Step → List Text
  | [] => []
  | .clock clock :: rest => (session.withClock clock).texts rest
  | .enter allowance entry source :: rest =>
    session.text entry source :: (session.enter allowance entry source).1.texts rest

variable {session : Session} {reference : Reference} {text : Text}

/-- Of an entered text the numbers of its references are kept, and the distances are
either kept too or left as they were. -/
theorem enter_spec (session : Session) (allowance : Nat) (entry : Entry) (source : String) :
    (session.enter allowance entry source).1.nextReference =
        (session.analysed entry source).nextReference ∧
      ((session.enter allowance entry source).1.distances = session.distances ∨
        (session.enter allowance entry source).1.distances =
          (session.analysed entry source).distances) := by
  rw [enter_eq]
  split
  · exact ⟨rfl, .inl rfl⟩
  · split
    · exact ⟨rfl, .inr rfl⟩
    · obtain ⟨distances, next⟩ := perform_spec (session.analysed entry source)
        (entry.computation (session.analysed entry source).distances allowance
          (session.program entry source))
      exact ⟨next, .inr distances⟩

/-- An entered text changes only what is known of its own references. -/
theorem distances_enter (allowance : Nat) (entry : Entry) (source : String)
    (other : reference < session.nextReference ∨
      (session.analysed entry source).nextReference ≤ reference) :
    (session.enter allowance entry source).1.distances[reference]? =
      session.distances[reference]? := by
  rcases (enter_spec session allowance entry source).2 with same | same
  · rw [same]
  · rw [same]
    exact Knows.distances_analysed entry source other

/-- The numbers of what is read in some steps are drawn one after the other. -/
theorem draws_texts (session : Session) (steps : List Step) :
    Draws [] session.nextReference (session.after steps).nextReference
      ((session.texts steps).flatMap Text.labels) := by
  induction steps generalizing session with
  | nil => exact .none [] session.nextReference
  | cons step rest ih =>
      cases step with
      | clock clock => exact ih (session.withClock clock)
      | enter allowance entry source =>
          have others := ih (session.enter allowance entry source).1
          rw [(enter_spec session allowance entry source).1] at others
          exact (session.draws_program entry source).append others

/-- No references that are read in some steps have the same number. -/
theorem labels_nodup (session : Session) (steps : List Step) :
    ((session.texts steps).flatMap Text.labels).Nodup :=
  (session.draws_texts steps).nodup

/-- The references that are read in some steps have numbers below those that come
later. -/
theorem lt_nextReference {steps : List Step} (listed : text ∈ session.texts steps)
    (member : reference ∈ text.labels) : reference < (session.after steps).nextReference :=
  ((session.draws_texts steps).mem (List.mem_flatMap_of_mem listed member)).2

/-- What is known of a reference that was numbered before, stays as it is. -/
theorem distances_after (steps : List Step) (numbered : reference < session.nextReference) :
    (session.after steps).distances[reference]? = session.distances[reference]? := by
  induction steps generalizing session with
  | nil => rfl
  | cons step rest ih =>
      cases step with
      | clock clock =>
          have numbered' : reference < (session.withClock clock).nextReference := numbered
          exact ih numbered'
      | enter allowance entry source =>
          have further : reference < (session.enter allowance entry source).1.nextReference := by
            rw [(enter_spec session allowance entry source).1]
            exact Nat.lt_of_lt_of_le numbered (session.draws_program entry source).ordered
          exact (ih further).trans (distances_enter allowance entry source (.inl numbered))

/-- No distance is known of the references to come. -/
def Unused (session : Session) : Prop :=
  ∀ reference, session.nextReference ≤ reference → session.distances[reference]? = none

theorem unused_start (limits : ConsoleLimits) (clock : Clock) : (start limits clock).Unused :=
  fun _ _ => Std.TreeMap.getElem?_emptyc

theorem Unused.enter (unused : session.Unused) (allowance : Nat) (entry : Entry)
    (source : String) : (session.enter allowance entry source).1.Unused := by
  intro reference beyond
  rw [(enter_spec session allowance entry source).1] at beyond
  rw [distances_enter allowance entry source (.inr beyond)]
  exact unused reference (Nat.le_trans (session.draws_program entry source).ordered beyond)

/-- A text that is read has new references. -/
theorem Unused.numbered_text (unused : session.Unused) (entry : Entry) (source : String) :
    (session.text entry source).Numbered := by
  have drawn := session.draws_program entry source
  exact ⟨drawn.nodup, fun reference member => unused reference (drawn.mem member).1⟩

/-- All texts that are read have new references. -/
theorem Unused.numbered (unused : session.Unused) {steps : List Step}
    (listed : text ∈ session.texts steps) : text.Numbered := by
  induction steps generalizing session with
  | nil => cases listed
  | cons step rest ih =>
      cases step with
      | clock clock =>
          have unused' : (session.withClock clock).Unused := unused
          exact ih unused' listed
      | enter allowance entry source =>
          rcases List.mem_cons.1 listed with rfl | listed
          · exact unused.numbered_text entry source
          · exact ih (unused.enter allowance entry source) listed

/-- The references of different texts never meet.  In a session, some steps are taken
after some others.

* The references of all texts that are read, whatever becomes of these, have different
  numbers.
* The analysis of one of these texts leaves what is known of all references that are not
  of this text.  Those of this text are known as they were recorded.
* A reference that is recorded is one of this text, nothing is known of it before, and
  it is recorded in no other state.
* What is known of the references of the texts that were read in the first steps is the
  same after the other steps. -/
theorem references_never_meet (limits : ConsoleLimits) (clock : Clock) (earlier later : List Step) :
    let texts := (start limits clock).texts (earlier ++ later)
    (texts.flatMap Text.labels).Nodup ∧
      (∀ text ∈ texts,
        (∀ reference ∉ text.labels,
          text.last.distances[reference]? = text.known[reference]?) ∧
        (∀ reference ∈ text.labels, ∀ distance,
          text.last.distances[reference]? = some distance ↔
            ∃ moment name, text.Records moment reference name ∧
              moment.distance? name.lexeme = some distance) ∧
        ∀ moment reference name, text.Records moment reference name →
          reference ∈ text.labels ∧ moment.distances[reference]? = none ∧
            ∀ again other, text.Records again reference other → again = moment ∧ other = name) ∧
      ∀ text ∈ (start limits clock).texts earlier, ∀ reference ∈ text.labels,
        ((start limits clock).after (earlier ++ later)).distances[reference]? =
          ((start limits clock).after earlier).distances[reference]? := by
  refine ⟨labels_nodup _ _, fun text listed => ?_, fun text listed reference member => ?_⟩
  · have numbered := (unused_start limits clock).numbered listed
    refine ⟨fun reference absent => ?_, fun reference member distance =>
      Text.last_eq_iff_records numbered member distance, fun moment reference name records => ?_⟩
    · exact (Analysis.adds_stmts text.start text.program).distances reference fun name among =>
        absent (List.mem_map_of_mem among)
    · exact ⟨records.mem_labels numbered, records.unknown numbered, fun again other records' =>
        records.unique numbered records'⟩
  · rw [after, List.foldl_append]
    exact distances_after later (lt_nextReference listed member)

end Session

end Lox
