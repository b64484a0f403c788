/-
# The trace of the fields

Three things happen to the fields of instances while a program runs: an instance is
made, a property of one is read, and a property is assigned.  The trace of a task lists
them in the order in which they happen, each with the machine on which it does.  Where a
task depends on the outcome of an earlier one, the outcome is that of the evaluator
itself, as it is for moments; what is stopped leaves no trace behind it.

Nothing is left out: the trace of a moment has in it the traces of all moments that it
reaches (`Moment.Reaches.trace`).
-/

import Lox.Proofs.Moments
import Lox.Proofs.Separation

namespace Lox

/-- Something that happens to the fields of an instance, and the machine on which it
happens. -/
inductive FieldEvent where
  | made (object : Instance) (machine : Machine)
  | read (object : Instance) (name : Token) (machine : Machine)
  | assigned (object : Instance) (name : Token) (value : Value) (machine : Machine)

open Execution (behind)

/-- What happens to the fields while a task is done, in this order. -/
def fieldTrace (distances : Distances) : Nat → Task → Machine → List FieldEvent
  | 0, _, _ => []
  | n + 1, .evaluate expr, m =>
    match expr with
    | .literal _ => []
    | .grouping inner => fieldTrace distances n (.evaluate inner) m
    | .unary _ operand => fieldTrace distances n (.evaluate operand) m
    | .binary left _ right =>
      fieldTrace distances n (.evaluate left) m ++
        behind (evaluate distances n left m) fun _ m' => fieldTrace distances n (.evaluate right) m'
    | .logical left operator right =>
      fieldTrace distances n (.evaluate left) m ++
        behind (evaluate distances n left m) fun value m' =>
          if settles operator value then [] else fieldTrace distances n (.evaluate right) m'
    | .variable .. => []
    | .this .. => []
    | .assign _ _ value => fieldTrace distances n (.evaluate value) m
    | .call callee paren arguments =>
      fieldTrace distances n (.evaluate callee) m ++
        behind (evaluate distances n callee m) fun value m' =>
          fieldTrace distances n (.evaluateAll arguments) m' ++
            behind (evaluateAll distances n arguments m') fun values m'' =>
              fieldTrace distances n (.call value paren values) m''
    | .get object name =>
      fieldTrace distances n (.evaluate object) m ++
        behind (evaluate distances n object m) fun owner m' =>
          match owner with
          | .instanceValue owner => [.read owner name m']
          | _ => []
    | .set object name value =>
      fieldTrace distances n (.evaluate object) m ++
        behind (evaluate distances n object m) fun owner m' =>
          match owner with
          | .instanceValue owner =>
            fieldTrace distances n (.evaluate value) m' ++
              behind (evaluate distances n value m') fun value m'' =>
                [.assigned owner name value m'']
          | _ => []
  | n + 1, .evaluateAll exprs, m =>
    match exprs with
    | [] => []
    | first :: rest =>
      fieldTrace distances n (.evaluate first) m ++
        behind (evaluate distances n first m) fun _ m' => fieldTrace distances n (.evaluateAll rest) m'
  | n + 1, .call callee _ arguments, m =>
    match callee with
    | .function closure =>
      if arguments.length = closure.declaration.parameters.length then
        fieldTrace distances n (.executeAll closure.declaration.body)
          (m.entering closure.home (argumentBindings closure.declaration.parameters arguments))
      else []
    | .classValue cls =>
      if arguments.length = 0 then [.made ⟨m.fields.size, cls⟩ m] else []
    | _ => []
  | n + 1, .execute stmt, m =>
    match stmt with
    | .expression expr => fieldTrace distances n (.evaluate expr) m
    | .print expr => fieldTrace distances n (.evaluate expr) m
    | .varDecl _ none => []
    | .varDecl _ (some initializer) => fieldTrace distances n (.evaluate initializer) m
    | .block body => fieldTrace distances n (.executeAll body) (m.entering m.current {})
    | .conditional condition onTrue onFalse =>
      fieldTrace distances n (.evaluate condition) m ++
        behind (evaluate distances n condition m) fun value m' =>
          if value.isTruthy then fieldTrace distances n (.execute onTrue) m'
          else
            match onFalse with
            | some onFalse => fieldTrace distances n (.execute onFalse) m'
            | none => []
    | .whileLoop condition body => fieldTrace distances n (.loop condition body) m
    | .funDecl _ => []
    | .returning _ none => []
    | .returning _ (some expr) => fieldTrace distances n (.evaluate expr) m
    | .classDecl .. => []
  | n + 1, .loop condition body, m =>
    fieldTrace distances n (.evaluate condition) m ++
      behind (evaluate distances n condition m) fun value m' =>
        if value.isTruthy then
          fieldTrace distances n (.execute body) m' ++
            behind (execute distances n body m') fun completion m'' =>
              match completion with
              | .normal => fieldTrace distances n (.loop condition body) m''
              | .returned _ => []
        else []
  | n + 1, .executeAll stmts, m =>
    match stmts with
    | [] => []
    | first :: rest =>
      fieldTrace distances n (.execute first) m ++
        behind (execute distances n first m) fun completion m' =>
          match completion with
          | .normal => fieldTrace distances n (.executeAll rest) m'
          | .returned _ => []

/-- What happens to the fields at a moment and at those that it asks for. -/
def Moment.trace (distances : Distances) (moment : Moment) : List FieldEvent :=
  fieldTrace distances moment.allowance moment.task moment.machine

/-! ## Texts and sessions -/

/-- What happens to the fields while a program is run. -/
def programTrace (distances : Distances) (allowance : Nat) :
    List (Stmt Reference) → Machine → List FieldEvent
  | [], _ => []
  | first :: rest, m =>
    fieldTrace distances allowance (.execute first) m ++
      behind (execute distances allowance first m) fun _ m' =>
        programTrace distances allowance rest m'

/-- What happens to the fields while an accepted text is run. -/
def Entry.trace (entry : Entry) (distances : Distances) (allowance : Nat)
    (program : List (Stmt Reference)) (m : Machine) : List FieldEvent :=
  match entry, program with
  | .line, [.expression expr] => fieldTrace distances allowance (.evaluate expr) m
  | _, _ => programTrace distances allowance program m

/-- What is no single expression on a line is run statement by statement. -/
theorem Entry.trace_eq_programTrace {entry : Entry} {distances : Distances} {allowance : Nat}
    {program : List (Stmt Reference)} {m : Machine}
    (other : ∀ expr, entry = .line → program = [.expression expr] → False) :
    entry.trace distances allowance program m = programTrace distances allowance program m := by
  unfold Entry.trace
  split
  · exact (other _ rfl rfl).elim
  · rfl

namespace Session

/-- What happens to the fields while a text is entered.  A text that is rejected is not
run. -/
def enterTrace (session : Session) (allowance : Nat) (entry : Entry) (source : String) :
    List FieldEvent :=
  match session.accepted? entry source with
  | none => []
  | some text =>
    entry.trace (session.analysed entry source).distances allowance text.program session.machine

/-- What happens to the fields during a row of steps. -/
def trace (session : Session) : List Step → List FieldEvent
  | [] => []
  | .clock clock :: rest => (session.withClock clock).trace rest
  | .enter allowance entry source :: rest =>
    session.enterTrace allowance entry source ++
      (session.enter allowance entry source).1.trace rest

theorem trace_append (session : Session) (front rest : List Step) :
    session.trace (front ++ rest) = session.trace front ++ (session.after front).trace rest := by
  induction front generalizing session with
  | nil => rfl
  | cons step front ih =>
      cases step with
      | clock clock => exact ih _
      | enter allowance entry source =>
          rw [List.cons_append, trace, ih, trace, List.append_assoc]
          rfl

end Session

end Lox
