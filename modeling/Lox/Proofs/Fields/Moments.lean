/-
# What happens to the fields, moment by moment

The trace of a session is all that happens to the fields at the moments to which the
session comes, and nothing else (`Session.mem_trace_iff`): it has in it, as a piece, the
trace of every moment (`Session.ComesTo.trace`), and everything in it happens at one of
them (`Session.exists_brings`).
-/

import Lox.Proofs.Agreement.Session
import Lox.Proofs.Fields.Trace

namespace Lox

open Execution (behind exists_of_mem_behind)

namespace Moment

variable {distances : Distances} {event : FieldEvent}

/-- At this moment an instance is made, or a property of one is read or assigned. -/
inductive Brings (distances : Distances) : Moment → FieldEvent → Prop where
  | made {n : Nat} {m : Machine} {cls : Class} {paren : Token} :
      Brings distances ⟨n + 1, .call (.classValue cls) paren [], m⟩ (.made ⟨m.fields.size, cls⟩ m)
  | read {n : Nat} {m m' : Machine} {object : Expr Reference} {name : Token} {owner : Instance}
      (ran : evaluate distances n object m = .ok (.instanceValue owner) m') :
      Brings distances ⟨n + 1, .evaluate (.get object name), m⟩ (.read owner name m')
  | assigned {n : Nat} {m m' m'' : Machine} {object expr : Expr Reference} {name : Token}
      {owner : Instance} {value : Value}
      (ran : evaluate distances n object m = .ok (.instanceValue owner) m')
      (ran' : evaluate distances n expr m' = .ok value m'') :
      Brings distances ⟨n + 1, .evaluate (.set object name expr), m⟩ (.assigned owner name value m'')

/-! ## Nothing is left out -/

/-- What happens at a moment happens at the one that asks for it. -/
theorem Asks.trace {first second : Moment} (asks : Asks distances first second) :
    second.trace distances <:+: first.trace distances := by
  have start (part more : List FieldEvent) : part <:+: part ++ more :=
    (List.prefix_append part more).isInfix
  have ending (before part : List FieldEvent) : part <:+: before ++ part :=
    (List.suffix_append before part).isInfix
  cases asks with
  | inner | operand | value | expression | print | initializer | block | loop | returned =>
      exact List.infix_refl _
  | left | first | callee | object | owner | firstExpr | condition | guard | firstStmt =>
      exact start _ _
  | right ran | otherExprs ran | otherStmts ran =>
      simp only [Moment.trace, fieldTrace, ran, behind]
      exact ending _ _
  | second ran goesOn =>
      simp only [Moment.trace, fieldTrace, ran, behind, goesOn, if_neg Bool.false_ne_true]
      exact ending _ _
  | arguments ran | stored ran =>
      simp only [Moment.trace, fieldTrace, ran, behind]
      exact List.infix_append' _ _ _
  | call ran ran' =>
      simp only [Moment.trace, fieldTrace, ran, ran', behind]
      exact (ending _ _).trans (ending _ _)
  | body arity =>
      simp only [Moment.trace, fieldTrace, if_pos arity]
      exact List.infix_refl _
  | onTrue ran truthy =>
      simp only [Moment.trace, fieldTrace, ran, behind, if_pos truthy]
      exact ending _ _
  | onFalse ran falsy =>
      simp only [Moment.trace, fieldTrace, ran, behind, falsy, if_neg Bool.false_ne_true]
      exact ending _ _
  | round ran truthy =>
      simp only [Moment.trace, fieldTrace, ran, behind, if_pos truthy]
      exact List.infix_append' _ _ _
  | again ran truthy ran' =>
      simp only [Moment.trace, fieldTrace, ran, ran', behind, if_pos truthy]
      exact (ending _ _).trans (ending _ _)

theorem Reaches.trace {first second : Moment} (reaches : first.Reaches distances second) :
    second.trace distances <:+: first.trace distances := by
  induction reaches with
  | refl => exact List.infix_refl _
  | tail _ asks ih => exact asks.trace.trans ih

/-- What a moment brings is in its trace. -/
theorem Brings.mem_trace {moment : Moment} (brings : moment.Brings distances event) :
    event ∈ moment.trace distances := by
  cases brings with
  | made => exact List.mem_singleton_self _
  | read ran =>
      simp only [Moment.trace, fieldTrace, ran, behind]
      exact List.mem_append_right _ (List.mem_singleton_self _)
  | assigned ran ran' =>
      simp only [Moment.trace, fieldTrace, ran, ran', behind]
      exact List.mem_append_right _ (List.mem_append_right _ (List.mem_singleton_self _))

/-! ## Nothing else is in it -/

/-- At this moment, or one that it asks for, this happens. -/
def Contains (distances : Distances) (moment : Moment) (event : FieldEvent) : Prop :=
  ∃ later, moment.Reaches distances later ∧ later.Brings distances event

theorem Brings.contains {moment : Moment} (brings : moment.Brings distances event) :
    moment.Contains distances event :=
  ⟨moment, .refl, brings⟩

theorem Contains.ask {first second : Moment} (contains : second.Contains distances event)
    (asks : Asks distances first second) : first.Contains distances event :=
  let ⟨later, reaches, brings⟩ := contains
  ⟨later, reaches.head asks, brings⟩

section Step

/-! For the tasks of a moment with allowance `n + 1`, if everything in the traces of those
with allowance `n` happens. -/

variable {n : Nat} {m : Machine}
  (ih : ∀ {task : Task} {m : Machine}, event ∈ fieldTrace distances n task m →
    Contains distances ⟨n, task, m⟩ event)

include ih

theorem contains_evaluate (expr : Expr Reference)
    (mem : event ∈ fieldTrace distances (n + 1) (.evaluate expr) m) :
    Contains distances ⟨n + 1, .evaluate expr, m⟩ event := by
  cases expr with
  | literal | «variable» | this => cases mem
  | grouping inner => exact (ih mem).ask .inner
  | unary operator operand => exact (ih mem).ask .operand
  | binary left operator right =>
      rcases List.mem_append.1 mem with mem | mem
      · exact (ih mem).ask .left
      · obtain ⟨value, m', ran, mem⟩ := exists_of_mem_behind mem
        exact (ih mem).ask (.right ran)
  | logical left operator right =>
      rcases List.mem_append.1 mem with mem | mem
      · exact (ih mem).ask .first
      · obtain ⟨value, m', ran, mem⟩ := exists_of_mem_behind mem
        split at mem
        · cases mem
        · next goesOn => exact (ih mem).ask (.second ran (Bool.eq_false_iff.2 goesOn))
  | assign reference name value => exact (ih mem).ask .value
  | call callee paren arguments =>
      rcases List.mem_append.1 mem with mem | mem
      · exact (ih mem).ask .callee
      · obtain ⟨value, m', ran, mem⟩ := exists_of_mem_behind mem
        rcases List.mem_append.1 mem with mem | mem
        · exact (ih mem).ask (.arguments ran)
        · obtain ⟨values, m'', ran', mem⟩ := exists_of_mem_behind mem
          exact (ih mem).ask (.call ran ran')
  | get object name =>
      rcases List.mem_append.1 mem with mem | mem
      · exact (ih mem).ask .object
      · obtain ⟨owner, m', ran, mem⟩ := exists_of_mem_behind mem
        split at mem
        · rw [List.mem_singleton.1 mem]
          exact (Brings.read ran).contains
        · cases mem
  | set object name value =>
      rcases List.mem_append.1 mem with mem | mem
      · exact (ih mem).ask .owner
      · obtain ⟨owner, m', ran, mem⟩ := exists_of_mem_behind mem
        split at mem
        · rcases List.mem_append.1 mem with mem | mem
          · exact (ih mem).ask (.stored ran)
          · obtain ⟨value, m'', ran', mem⟩ := exists_of_mem_behind mem
            rw [List.mem_singleton.1 mem]
            exact (Brings.assigned ran ran').contains
        · cases mem

theorem contains_evaluateAll (exprs : List (Expr Reference))
    (mem : event ∈ fieldTrace distances (n + 1) (.evaluateAll exprs) m) :
    Contains distances ⟨n + 1, .evaluateAll exprs, m⟩ event := by
  cases exprs with
  | nil => cases mem
  | cons first rest =>
      rcases List.mem_append.1 mem with mem | mem
      · exact (ih mem).ask .firstExpr
      · obtain ⟨value, m', ran, mem⟩ := exists_of_mem_behind mem
        exact (ih mem).ask (.otherExprs ran)

theorem contains_call (callee : Value) (paren : Token) (arguments : List Value)
    (mem : event ∈ fieldTrace distances (n + 1) (.call callee paren arguments) m) :
    Contains distances ⟨n + 1, .call callee paren arguments, m⟩ event := by
  cases callee with
  | function closure =>
      rw [fieldTrace] at mem
      split at mem
      · next arity => exact (ih mem).ask (.body arity)
      · cases mem
  | classValue cls =>
      rw [fieldTrace] at mem
      split at mem
      · next noArguments =>
          obtain rfl := List.eq_nil_of_length_eq_zero noArguments
          rw [List.mem_singleton.1 mem]
          exact Brings.made.contains
      · cases mem
  | nil | boolean | number | string | native | instanceValue => cases mem

theorem contains_execute (stmt : Stmt Reference)
    (mem : event ∈ fieldTrace distances (n + 1) (.execute stmt) m) :
    Contains distances ⟨n + 1, .execute stmt, m⟩ event := by
  cases stmt with
  | funDecl | classDecl => cases mem
  | expression expr => exact (ih mem).ask .expression
  | print expr => exact (ih mem).ask .print
  | varDecl name initializer =>
      cases initializer with
      | none => cases mem
      | some initializer => exact (ih mem).ask .initializer
  | block body => exact (ih mem).ask .block
  | conditional condition onTrue onFalse =>
      rcases List.mem_append.1 mem with mem | mem
      · exact (ih mem).ask .condition
      · obtain ⟨value, m', ran, mem⟩ := exists_of_mem_behind mem
        split at mem
        · next truthy => exact (ih mem).ask (.onTrue ran truthy)
        · next falsy =>
            cases onFalse with
            | none => cases mem
            | some onFalse => exact (ih mem).ask (.onFalse ran (Bool.eq_false_iff.2 falsy))
  | whileLoop condition body => exact (ih mem).ask .loop
  | returning keyword value =>
      cases value with
      | none => cases mem
      | some expr => exact (ih mem).ask .returned

theorem contains_loop (condition : Expr Reference) (body : Stmt Reference)
    (mem : event ∈ fieldTrace distances (n + 1) (.loop condition body) m) :
    Contains distances ⟨n + 1, .loop condition body, m⟩ event := by
  rcases List.mem_append.1 mem with mem | mem
  · exact (ih mem).ask .guard
  · obtain ⟨value, m', ran, mem⟩ := exists_of_mem_behind mem
    split at mem
    · next truthy =>
        rcases List.mem_append.1 mem with mem | mem
        · exact (ih mem).ask (.round ran truthy)
        · obtain ⟨completion, m'', ran', mem⟩ := exists_of_mem_behind mem
          split at mem
          · exact (ih mem).ask (.again ran truthy ran')
          · cases mem
    · cases mem

theorem contains_executeAll (stmts : List (Stmt Reference))
    (mem : event ∈ fieldTrace distances (n + 1) (.executeAll stmts) m) :
    Contains distances ⟨n + 1, .executeAll stmts, m⟩ event := by
  cases stmts with
  | nil => cases mem
  | cons first rest =>
      rcases List.mem_append.1 mem with mem | mem
      · exact (ih mem).ask .firstStmt
      · obtain ⟨completion, m', ran, mem⟩ := exists_of_mem_behind mem
        split at mem
        · exact (ih mem).ask (.otherStmts ran)
        · cases mem

end Step

/-- Everything in the trace of a task happens while it is done. -/
theorem contains_of_mem (n : Nat) {task : Task} {m : Machine}
    (mem : event ∈ fieldTrace distances n task m) : Contains distances ⟨n, task, m⟩ event := by
  induction n generalizing task m with
  | zero => cases mem
  | succ n ih =>
      cases task with
      | evaluate expr => exact contains_evaluate ih expr mem
      | evaluateAll exprs => exact contains_evaluateAll ih exprs mem
      | call callee paren arguments => exact contains_call ih callee paren arguments mem
      | execute stmt => exact contains_execute ih stmt mem
      | loop condition body => exact contains_loop ih condition body mem
      | executeAll stmts => exact contains_executeAll ih stmts mem

end Moment

/-! ## Texts and sessions -/

theorem Starts.trace {distances : Distances} {allowance : Nat} {program : List (Stmt Reference)}
    {m : Machine} {moment : Moment} (starts : Starts distances allowance program m moment) :
    moment.trace distances <:+: programTrace distances allowance program m := by
  induction starts with
  | first => exact (List.prefix_append _ _).isInfix
  | later ran _ ih =>
      rw [programTrace, ran]
      exact ih.trans (List.suffix_append _ _).isInfix

theorem Entry.Starts.trace {entry : Entry} {distances : Distances} {allowance : Nat}
    {program : List (Stmt Reference)} {m : Machine} {moment : Moment}
    (starts : entry.Starts distances allowance program m moment) :
    moment.trace distances <:+: entry.trace distances allowance program m := by
  unfold Entry.Starts at starts
  split at starts
  · rw [starts]
    exact List.infix_refl _
  · next other =>
      rw [trace_eq_programTrace other]
      exact Lox.Starts.trace starts

/-- Everything in the trace of a program happens while one of its statements is run. -/
theorem exists_starts {distances : Distances} {allowance : Nat} {event : FieldEvent}
    (program : List (Stmt Reference)) {m : Machine}
    (mem : event ∈ programTrace distances allowance program m) :
    ∃ moment, Starts distances allowance program m moment ∧ event ∈ moment.trace distances := by
  induction program generalizing m with
  | nil => cases mem
  | cons first rest ih =>
      rcases List.mem_append.1 mem with mem | mem
      · exact ⟨_, .first, mem⟩
      · obtain ⟨completion, m', ran, mem⟩ := exists_of_mem_behind mem
        obtain ⟨moment, starts, mem⟩ := ih mem
        exact ⟨moment, .later ran starts, mem⟩

theorem Entry.exists_starts {distances : Distances} {allowance : Nat} {event : FieldEvent}
    (entry : Entry) (program : List (Stmt Reference)) {m : Machine}
    (mem : event ∈ entry.trace distances allowance program m) :
    ∃ moment, entry.Starts distances allowance program m moment ∧
      event ∈ moment.trace distances := by
  unfold Entry.trace at mem
  unfold Entry.Starts
  split
  · exact ⟨_, rfl, mem⟩
  · next other =>
      split at mem
      · exact (other _ rfl rfl).elim
      · exact Lox.exists_starts program mem

namespace Session

/-- The trace of a session has in it the traces of all moments to which the session comes
in any of its texts. -/
theorem ComesTo.trace {session : Session} {front rest : List Step} {allowance : Nat} {entry : Entry}
    {source : String} {text : Text} {moment : Moment}
    (accepted : (session.after front).accepted? entry source = some text)
    (comes : (session.after front).ComesTo allowance entry source moment) :
    moment.trace ((session.after front).analysed entry source).distances <:+:
      session.trace (front ++ .enter allowance entry source :: rest) := by
  obtain ⟨first, starts, reaches⟩ := comes
  obtain ⟨-, rfl⟩ := accepted?_eq_some.1 accepted
  have inside := reaches.trace.trans starts.trace
  rw [trace_append, Session.trace, enterTrace, accepted]
  exact (inside.trans (List.prefix_append _ _).isInfix).trans (List.suffix_append _ _).isInfix

/-- In one of these steps the session accepts a text and comes to a moment at which this
happens. -/
def Brings (session : Session) (steps : List Step) (event : FieldEvent) : Prop :=
  ∃ front allowance entry source rest text moment,
    steps = front ++ .enter allowance entry source :: rest ∧
      (session.after front).accepted? entry source = some text ∧
      (session.after front).ComesTo allowance entry source moment ∧
      moment.Brings ((session.after front).analysed entry source).distances event

theorem Brings.cons {session : Session} {step : Step} {steps : List Step} {event : FieldEvent}
    (brings : (session.step step).Brings steps event) : session.Brings (step :: steps) event := by
  obtain ⟨front, allowance, entry, source, rest, text, moment, rfl, found⟩ := brings
  exact ⟨step :: front, allowance, entry, source, rest, text, moment, rfl, found⟩

/-- Everything in the trace of a session happens at a moment to which the session comes. -/
theorem brings_of_mem_trace {session : Session} {steps : List Step} {event : FieldEvent}
    (mem : event ∈ session.trace steps) : session.Brings steps event := by
  induction steps generalizing session with
  | nil => cases mem
  | cons step rest ih =>
      cases step with
      | clock clock => exact Brings.cons (ih mem : (session.step (.clock clock)).Brings rest event)
      | enter allowance entry source =>
          rcases List.mem_append.1 mem with mem | mem
          · rw [enterTrace] at mem
            cases accepted : session.accepted? entry source with
            | none =>
                rw [accepted] at mem
                cases mem
            | some text =>
                rw [accepted] at mem
                obtain ⟨-, rfl⟩ := accepted?_eq_some.1 accepted
                obtain ⟨first, starts, mem⟩ := Entry.exists_starts entry _ mem
                obtain ⟨moment, reaches, brings⟩ := Moment.contains_of_mem _ mem
                exact ⟨[], allowance, entry, source, rest, _, moment, rfl, accepted,
                  ⟨first, starts, reaches⟩, brings⟩
          · have later : (session.step (.enter allowance entry source)).Brings rest event := ih mem
            exact later.cons

/-- What happens to the fields at any moment is in the trace, and nothing else is. -/
theorem mem_trace_iff {session : Session} {steps : List Step} {event : FieldEvent} :
    event ∈ session.trace steps ↔ session.Brings steps event := by
  refine ⟨brings_of_mem_trace, ?_⟩
  rintro ⟨front, allowance, entry, source, rest, text, moment, rfl, accepted, comes, brings⟩
  exact (comes.trace accepted).subset brings.mem_trace

end Session

end Lox
