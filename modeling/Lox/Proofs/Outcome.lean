/-
# Readings without their bounds

The type of a reading says how many tokens it leaves at most.  Two readings of
different tokens are therefore of different types, even if they come to the same.
The *outcome* of a reading forgets the bound, so that such readings can be compared,
and each way of putting readings together has a counterpart for outcomes.
-/

import Lox.Proofs.Grammar.Clean

namespace Lox

/-- What came of reading a phrase, whatever the number of tokens that are left. -/
inductive Outcome (α : Type) where
  | done (value : α) (notices : List Notice) (rest : List Token)
  | stuck (notices : List Notice) (fault : SyntaxFault) (rest : List Token)

variable {α β : Type} {n : Nat}

namespace Outcome

/-- The same outcome with another phrase. -/
def map (f : α → β) : Outcome α → Outcome β
  | done value notices rest => done (f value) notices rest
  | stuck notices fault rest => stuck notices fault rest

/-- The same outcome after other notices. -/
def noticing (earlier : List Notice) : Outcome α → Outcome α
  | done value notices rest => done value (earlier ++ notices) rest
  | stuck notices fault rest => stuck (earlier ++ notices) fault rest

/-- What comes of a phrase that follows. -/
def bind (outcome : Outcome α) (next : α → List Token → Outcome β) : Outcome β :=
  match outcome with
  | done value notices rest => (next value rest).noticing notices
  | stuck notices fault rest => stuck notices fault rest

@[simp]
theorem noticing_nil (outcome : Outcome α) : outcome.noticing [] = outcome := by
  cases outcome <;> rfl

theorem bind_done (value : α) (rest : List Token) (next : α → List Token → Outcome β) :
    (done value [] rest).bind next = next value rest :=
  noticing_nil _

end Outcome

namespace Reader

/-- What came of a reading. -/
def outcome : Reader Id α n → Outcome α
  | done value notices rest _ => .done value notices rest
  | stuck notices fault rest _ => .stuck notices fault rest

@[simp]
theorem outcome_stopped (fault : SyntaxFault) (tokens : List Token) :
    (stopped fault tokens : Reader Id α tokens.length).outcome = .stuck [] fault tokens :=
  rfl

@[simp]
theorem outcome_behind (reading : Reader Id α n) : reading.behind.outcome = reading.outcome := by
  cases reading <;> rfl

@[simp]
theorem outcome_map (f : α → β) (reading : Reader Id α n) :
    (reading.map f).outcome = reading.outcome.map f := by
  cases reading <;> rfl

@[simp]
theorem outcome_noticing (earlier : List Notice) (reading : Reader Id α n) :
    (reading.noticing earlier).outcome = reading.outcome.noticing earlier := by
  cases reading <;> rfl

theorem outcome_andPerhaps (reading : Reader Id α n)
    (next : α → (rest : List Token) → Reader Id β (rest.length + 1)) :
    (reading.andPerhaps fun value rest _ => next value rest).outcome =
      reading.outcome.bind fun value rest => (next value rest).outcome := by
  cases reading with
  | stuck => rfl
  | done value notices rest shorter =>
      show _ = (next value rest).outcome.noticing notices
      cases second : next value rest with
      | done => rw [andPerhaps_of_done second]; rfl
      | stuck => rw [andPerhaps_of_stuck second]; rfl

theorem outcome_andThen (reading : Reader Id α n)
    (next : α → (rest : List Token) → Reader Id β rest.length) :
    (reading.andThen fun value rest _ => next value rest).outcome =
      reading.outcome.bind fun value rest => (next value rest).outcome := by
  rw [andThen, outcome_andPerhaps reading fun value rest => (next value rest).behind]
  simp only [outcome_behind]

/-- A reading is clean if it is done without a notice. -/
theorem clean_iff_outcome {reading : Reader Id α n} {value : α} {rest : List Token} :
    reading.Clean value rest ↔ reading.outcome = .done value [] rest := by
  cases reading <;> simp [outcome]

theorem Clean.outcome_eq {reading : Reader Id α n} {value : α} {rest : List Token}
    (clean : reading.Clean value rest) : reading.outcome = .done value [] rest :=
  clean_iff_outcome.1 clean

end Reader

theorem outcome_expect_cons (wanted : Token → Bool) (fault : SyntaxFault) (token : Token)
    (rest : List Token) : (expect wanted fault (token :: rest)).outcome =
      if wanted token then .done token [] rest else .stuck [] fault (token :: rest) := by
  rw [expect]
  split <;> rfl

namespace Declarer

theorem outcome_andThen (declared : Declarer Id Unit n)
    (next : (rest : List Token) → Reader Id (List (Stmt Unit)) rest.length) :
    (declared.andThen fun rest _ => next rest).outcome =
      ((next declared.rest).outcome.map (declared.statement.toList ++ ·)).noticing
        declared.notices := by
  cases second : next declared.rest with
  | done => rw [andThen_of_done second]; rfl
  | stuck => rw [andThen_of_stuck second]; rfl

variable {reading : Reader Id (Stmt Unit) (n + 1)} {notices : List Notice} {rest : List Token}

/-- A declaration that was read goes on behind it. -/
theorem ofReader_done {statement : Stmt Unit}
    (done : reading.outcome = .done statement notices rest) :
    (ofReader reading).statement = some statement ∧ (ofReader reading).notices = notices ∧
      (ofReader reading).rest = rest := by
  cases reading with
  | done =>
      injection done with values same left
      exact ⟨congrArg some values, same, left⟩
  | stuck => cases done

/-- A declaration that was stopped goes on where a statement may start again. -/
theorem ofReader_stuck {fault : SyntaxFault}
    (stuck : reading.outcome = .stuck notices fault rest) :
    (ofReader reading).statement = none ∧
      (ofReader reading).notices = notices ++ [⟨fault, rest.head?⟩] ∧
      (ofReader reading).rest = resume rest := by
  cases reading with
  | done => cases stuck
  | stuck =>
      injection stuck with same faults left
      subst same faults left
      exact ⟨rfl, rfl, rfl⟩

end Declarer

end Lox
