/-
# Where a run is stopped

A run is stopped at one of its moments: by an operator that does not take its operands,
by a variable or a property that is not there, by a call that cannot be made, by the
console, or because the allowance is used up (`Moment.Raises`).  Everything around that
moment only passes the interrupt on.

So whatever stops a run is raised at a moment that the run reaches, and to exclude an
interrupt it is enough to look at single moments.  Nothing is supposed of the trees that
are run.
-/

import Lox.Proofs.Moments

namespace Lox

open Execution

variable {α β : Type} {distances : Distances}

/-- How many arguments a value takes, if it can be called. -/
def ValueOf.arity? {ρ γ : Type} : ValueOf ρ γ → Option Nat
  | .function closure => some closure.declaration.parameters.length
  | .native .clock => some 0
  | .classValue _ => some 0
  | _ => none

/-- A prefix operator is only stopped where it negates, by an operand that is no number. -/
theorem fault_of_prefixValue {ρ γ : Type} {operator : Token} {operand : ValueOf ρ γ}
    {fault : RuntimeFault} (wrong : prefixValue operator operand = .error fault) :
    fault = .operandNotNumber operator.lexeme := by
  unfold prefixValue at wrong
  split at wrong
  · cases wrong
  · split at wrong
    · cases wrong
    · cases wrong
      rfl

/-- No operator is stopped by a variable. -/
theorem infixValue_ne_undefinedVariable {ρ γ : Type} (operator : Token)
    (left right : ValueOf ρ γ) (name : String) :
    infixValue operator left right ≠ .error (.undefinedVariable name) := by
  unfold infixValue sumValue arithmeticValue
  grind

namespace Moment

/-- At this moment a run is stopped, and not at a moment that it asks for. -/
inductive Raises (distances : Distances) : Moment → Interrupt → Prop where
  | exhausted {task : Task} {m : Machine} : Raises distances ⟨0, task, m⟩ .exhausted
  | operand {n : Nat} {m m' : Machine} {operator : Token} {operand : Expr Reference}
      {value : Value} {fault : RuntimeFault} (ran : evaluate distances n operand m = .ok value m')
      (wrong : prefixValue operator value = .error fault) :
      Raises distances ⟨n + 1, .evaluate (.unary operator operand), m⟩
        (.runtime ⟨fault, operator.line⟩)
  | operands {n : Nat} {m m' m'' : Machine} {left right : Expr Reference} {operator : Token}
      {first second : Value} {fault : RuntimeFault}
      (ran : evaluate distances n left m = .ok first m')
      (ran' : evaluate distances n right m' = .ok second m'')
      (wrong : infixValue operator first second = .error fault) :
      Raises distances ⟨n + 1, .evaluate (.binary left operator right), m⟩
        (.runtime ⟨fault, operator.line⟩)
  | variable {moment : Moment} {reference : Reference} {token : Token}
      (misses : Misses distances moment reference token) :
      Raises distances moment (.runtime ⟨.undefinedVariable token.lexeme, token.line⟩)
  | property {n : Nat} {m m' m'' : Machine} {object : Expr Reference} {name : Token}
      {owner : Instance} (ran : evaluate distances n object m = .ok (.instanceValue owner) m')
      (missing : Execution.property owner name m' =
        .error (.runtime ⟨.undefinedProperty name.lexeme, name.line⟩) m'') :
      Raises distances ⟨n + 1, .evaluate (.get object name), m⟩
        (.runtime ⟨.undefinedProperty name.lexeme, name.line⟩)
  | propertyOf {n : Nat} {m m' : Machine} {object : Expr Reference} {name : Token} {value : Value}
      (ran : evaluate distances n object m = .ok value m')
      (other : ∀ owner, value ≠ .instanceValue owner) :
      Raises distances ⟨n + 1, .evaluate (.get object name), m⟩
        (.runtime ⟨.propertyOfNonInstance, name.line⟩)
  | fieldOf {n : Nat} {m m' : Machine} {object expr : Expr Reference} {name : Token}
      {value : Value} (ran : evaluate distances n object m = .ok value m')
      (other : ∀ owner, value ≠ .instanceValue owner) :
      Raises distances ⟨n + 1, .evaluate (.set object name expr), m⟩
        (.runtime ⟨.fieldOfNonInstance, name.line⟩)
  | arity {n : Nat} {m : Machine} {callee : Value} {paren : Token} {arguments : List Value}
      {expected : Nat} (takes : callee.arity? = some expected)
      (wrong : arguments.length ≠ expected) :
      Raises distances ⟨n + 1, .call callee paren arguments, m⟩
        (.runtime ⟨.wrongArgumentCount expected arguments.length, paren.line⟩)
  | notCallable {n : Nat} {m : Machine} {callee : Value} {paren : Token}
      {arguments : List Value} (never : callee.arity? = none) :
      Raises distances ⟨n + 1, .call callee paren arguments, m⟩
        (.runtime ⟨.notCallable, paren.line⟩)
  | print {n : Nat} {m m' m'' : Machine} {expr : Expr Reference} {value : Value}
      {fault : OutputFault} (ran : evaluate distances n expr m = .ok value m')
      (failed : Execution.print value m' = .error (.output fault) m'') :
      Raises distances ⟨n + 1, .execute (.print expr), m⟩ (.output fault)

/-- An undefined variable is raised where it is missed. -/
theorem Raises.misses {moment : Moment} {name : String} {line : Nat}
    (raises : Raises distances moment (.runtime ⟨.undefinedVariable name, line⟩)) :
    ∃ reference token, Misses distances moment reference token ∧ token.lexeme = name ∧
      token.line = line := by
  generalize same : Interrupt.runtime ⟨.undefinedVariable name, line⟩ = interrupt at raises
  cases raises with
  | «variable» misses =>
      cases same
      exact ⟨_, _, misses, rfl, rfl⟩
  | operand ran wrong =>
      cases same
      cases fault_of_prefixValue wrong
  | operands ran ran' wrong =>
      cases same
      exact absurd wrong (infixValue_ne_undefinedVariable _ _ _ _)
  | _ => cases same

/-- What stops a computation that belongs to a moment is raised at a moment that this one
reaches. -/
def Explains (distances : Distances) (moment : Moment) (computation : Execution α)
    (machine : Machine) : Prop :=
  Ensures computation machine (fun _ _ => True) fun interrupt _ =>
    ∃ reached, moment.Reaches distances reached ∧ reached.Raises distances interrupt

end Moment

open Moment

/-! ## What stops a step -/

namespace Execution

/-- A look-up is stopped by nothing but that the variable is undefined. -/
theorem eq_of_lookUp {distance : Option Nat} {name : Token} {machine machine' : Machine}
    {interrupt : Interrupt} (ran : lookUp distance name machine = .error interrupt machine') :
    interrupt = .runtime ⟨.undefinedVariable name.lexeme, name.line⟩ := by
  have whole : Ensures (lookUp distance name) machine (fun _ _ => True) fun interrupt _ =>
      interrupt = .runtime ⟨.undefinedVariable name.lexeme, name.line⟩ := by
    unfold lookUp
    apply ensures_bind
    · rintro _ _ ⟨⟩
      dsimp only
      split
      · trivial
      · rfl
    · rintro _ _ ⟨⟩
  exact whole.stopped ran

/-- An assignment is stopped by nothing but that the variable is undefined. -/
theorem eq_of_assign {distance : Option Nat} {name : Token} {value : Value}
    {machine machine' : Machine} {interrupt : Interrupt}
    (ran : assign distance name value machine = .error interrupt machine') :
    interrupt = .runtime ⟨.undefinedVariable name.lexeme, name.line⟩ := by
  have whole : Ensures (assign distance name value) machine (fun _ _ => True) fun interrupt _ =>
      interrupt = .runtime ⟨.undefinedVariable name.lexeme, name.line⟩ := by
    unfold assign
    apply ensures_bind
    · rintro _ _ ⟨⟩
      dsimp only
      split
      · trivial
      · rfl
    · rintro _ _ ⟨⟩
  exact whole.stopped ran

/-- A property is missing, or nothing stops its being read. -/
theorem eq_of_property {object : Instance} {name : Token} {machine machine' : Machine}
    {interrupt : Interrupt} (ran : property object name machine = .error interrupt machine') :
    interrupt = .runtime ⟨.undefinedProperty name.lexeme, name.line⟩ := by
  have whole : Ensures (property object name) machine (fun _ _ => True) fun interrupt _ =>
      interrupt = .runtime ⟨.undefinedProperty name.lexeme, name.line⟩ := by
    unfold property
    apply ensures_bind
    · rintro _ _ ⟨⟩
      split
      · trivial
      · split
        · trivial
        · rfl
    · rintro _ _ ⟨⟩
  exact whole.stopped ran

/-- Printing is stopped by nothing but the console. -/
theorem exists_of_print {value : Value} {machine machine' : Machine} {interrupt : Interrupt}
    (ran : print value machine = .error interrupt machine') :
    ∃ fault, interrupt = .output fault := by
  have whole : Ensures (print value) machine (fun _ _ => True) fun interrupt _ =>
      ∃ fault, interrupt = .output fault := by
    unfold print
    apply ensures_bind
    · rintro _ _ ⟨⟩
      rcases machine.console.print value.display with ⟨fault, console⟩
      cases fault with
      | none => trivial
      | some fault => exact ⟨fault, rfl⟩
    · rintro _ _ ⟨⟩
  exact whole.stopped ran

end Execution

namespace Moment.Explains

variable {moment : Moment} {computation : Execution α} {machine : Machine}

/-- What stops a computation is raised at the moment itself. -/
theorem of_raises (raises : ∀ interrupt later, computation machine = .error interrupt later →
    moment.Raises distances interrupt) : Explains distances moment computation machine := by
  unfold Explains Ensures
  split
  · trivial
  · next ran => exact ⟨moment, .refl, raises _ _ ran⟩

theorem pure (value : α) : Explains distances moment (Pure.pure value) machine :=
  trivial

theorem fail {place : Token} {fault : RuntimeFault}
    (raises : moment.Raises distances (.runtime ⟨fault, place.line⟩)) :
    Explains distances moment (Execution.fail place fault : Execution α) machine :=
  ⟨moment, .refl, raises⟩

theorem require {place : Token} {result : Except RuntimeFault α}
    (raises : ∀ fault, result = .error fault →
      moment.Raises distances (.runtime ⟨fault, place.line⟩)) :
    Explains distances moment (Execution.require place result) machine := by
  cases result with
  | ok value => exact pure value
  | error fault => exact fail (raises fault rfl)

theorem checkArity {place : Token} {expected given : Nat} (raises : given ≠ expected →
      moment.Raises distances (.runtime ⟨.wrongArgumentCount expected given, place.line⟩)) :
    Explains distances moment (Execution.checkArity place expected given) machine := by
  unfold Execution.checkArity
  split
  · exact pure ()
  · next wrong => exact fail (raises wrong)

/-- A computation that belongs to a moment that this one asks for. -/
theorem ask {second : Moment} (explains : Explains distances second computation machine)
    (asks : Asks distances moment second) : Explains distances moment computation machine :=
  Ensures.mono explains (fun _ _ => id) fun _ _ ⟨reached, reaches, raises⟩ =>
    ⟨reached, .head asks reaches, raises⟩

theorem bind {next : α → Execution β} (before : Explains distances moment computation machine)
    (behind : ∀ value machine', computation machine = .ok value machine' →
      Explains distances moment (next value) machine') :
    Explains distances moment (computation >>= next) machine :=
  ensures_bind behind fun _ _ ran => Ensures.stopped before ran

theorem within {frame : FrameId}
    (inside : Explains distances moment computation { machine with current := frame }) :
    Explains distances moment (Execution.within frame computation) machine := by
  apply ensures_within
  exact inside

end Moment.Explains

/-! ## What stops a run -/

mutual

/-- What stops the evaluation of an expression is raised at a moment that it reaches. -/
theorem explains_evaluate (n : Nat) (expr : Expr Reference) (m : Machine) :
    Explains distances ⟨n, .evaluate expr, m⟩ (evaluate distances n expr) m := by
  match n, expr with
  | 0, _ => exact ⟨_, .refl, .exhausted⟩
  | n + 1, .literal value => exact .pure _
  | n + 1, .grouping inner => exact (explains_evaluate n inner m).ask .inner
  | n + 1, .unary operator operand =>
      exact ((explains_evaluate n operand m).ask .operand).bind fun _ _ ran =>
        .require fun _ wrong => .operand ran wrong
  | n + 1, .binary left operator right =>
      exact ((explains_evaluate n left m).ask .left).bind fun _ _ ran =>
        ((explains_evaluate n right _).ask (.right ran)).bind fun _ _ ran' =>
          .require fun _ wrong => .operands ran ran' wrong
  | n + 1, .logical left operator right =>
      refine ((explains_evaluate n left m).ask .first).bind fun value _ ran => ?_
      split
      · exact .pure _
      · next goesOn =>
          exact (explains_evaluate n right _).ask (.second ran (by simpa using goesOn))
  | n + 1, .variable reference name =>
      show Explains _ _ (lookUp _ name) m
      refine .of_raises fun interrupt later missing => ?_
      obtain rfl := eq_of_lookUp missing
      exact .variable (.named missing)
  | n + 1, .this reference keyword =>
      show Explains _ _ (lookUp _ keyword) m
      refine .of_raises fun interrupt later missing => ?_
      obtain rfl := eq_of_lookUp missing
      exact .variable (.receiver missing)
  | n + 1, .assign reference name expr =>
      refine ((explains_evaluate n expr m).ask .value).bind fun value m' ran => ?_
      refine Moment.Explains.bind (.of_raises fun interrupt later missing => ?_)
        fun _ _ _ => .pure _
      obtain rfl := eq_of_assign missing
      exact .variable (.assigned ran missing)
  | n + 1, .call callee paren arguments =>
      exact ((explains_evaluate n callee m).ask .callee).bind fun value m' ran =>
        ((explains_evaluateAll n arguments m').ask (.arguments ran)).bind fun values m'' ran' =>
          (explains_call n value paren values m'').ask (.call ran ran')
  | n + 1, .get object name =>
      refine ((explains_evaluate n object m).ask .object).bind fun value m' ran => ?_
      split
      · refine .of_raises fun interrupt later missing => ?_
        obtain rfl := eq_of_property missing
        exact .property ran missing
      · next other => exact .fail (.propertyOf ran fun owner => other owner)
  | n + 1, .set object name expr =>
      refine ((explains_evaluate n object m).ask .owner).bind fun value m' ran => ?_
      split
      · exact ((explains_evaluate n expr m').ask (.stored ran)).bind fun _ _ _ => trivial
      · next other => exact .fail (.fieldOf ran fun owner => other owner)

/-- What stops the evaluation of a row of expressions is raised at a moment that it
reaches. -/
theorem explains_evaluateAll (n : Nat) (exprs : List (Expr Reference)) (m : Machine) :
    Explains distances ⟨n, .evaluateAll exprs, m⟩ (evaluateAll distances n exprs) m := by
  match n, exprs with
  | 0, _ => exact ⟨_, .refl, .exhausted⟩
  | n + 1, [] => exact .pure _
  | n + 1, first :: rest =>
      exact ((explains_evaluate n first m).ask .firstExpr).bind fun value m' ran =>
        ((explains_evaluateAll n rest m').ask (.otherExprs ran)).bind fun _ _ _ => .pure _

/-- What stops a call is raised at a moment that it reaches. -/
theorem explains_call (n : Nat) (callee : Value) (paren : Token) (arguments : List Value)
    (m : Machine) : Explains distances ⟨n, .call callee paren arguments, m⟩
      (call distances n callee paren arguments) m := by
  match n, callee with
  | 0, _ => exact ⟨_, .refl, .exhausted⟩
  | n + 1, .function closure =>
      refine Moment.Explains.bind (.checkArity fun wrong => .arity rfl wrong) fun _ m' checked => ?_
      obtain ⟨arity, rfl⟩ := of_checkArity checked
      have made {moment : Moment} : Explains distances moment (newFrame closure.home
          (argumentBindings closure.declaration.parameters arguments)) m' := trivial
      refine made.bind ?_
      rintro _ _ ⟨⟩
      refine Moment.Explains.bind (.within ((explains_executeAll n _ _).ask (.body arity))) ?_
      intro completion _ _
      cases completion <;> exact .pure _
  | n + 1, .native .clock =>
      exact Moment.Explains.bind (.checkArity fun wrong => .arity rfl wrong) fun _ _ _ => trivial
  | n + 1, .classValue cls =>
      exact Moment.Explains.bind (.checkArity fun wrong => .arity rfl wrong) fun _ _ _ => trivial
  | n + 1, .nil => exact .fail (.notCallable rfl)
  | n + 1, .boolean _ => exact .fail (.notCallable rfl)
  | n + 1, .number _ => exact .fail (.notCallable rfl)
  | n + 1, .string _ => exact .fail (.notCallable rfl)
  | n + 1, .instanceValue _ => exact .fail (.notCallable rfl)

/-- What stops a statement is raised at a moment that it reaches. -/
theorem explains_execute (n : Nat) (stmt : Stmt Reference) (m : Machine) :
    Explains distances ⟨n, .execute stmt, m⟩ (execute distances n stmt) m := by
  match n, stmt with
  | 0, _ => exact ⟨_, .refl, .exhausted⟩
  | n + 1, .expression expr =>
      exact ((explains_evaluate n expr m).ask .expression).bind fun _ _ _ => .pure _
  | n + 1, .print expr =>
      refine ((explains_evaluate n expr m).ask .print).bind fun value m' ran => ?_
      refine Moment.Explains.bind (.of_raises fun interrupt later failed => ?_) fun _ _ _ => .pure _
      obtain ⟨fault, rfl⟩ := exists_of_print failed
      exact .print ran failed
  | n + 1, .varDecl name none => trivial
  | n + 1, .varDecl name (some initializer) =>
      exact ((explains_evaluate n initializer m).ask .initializer).bind fun _ _ _ => trivial
  | n + 1, .block body => exact Moment.Explains.within ((explains_executeAll n body _).ask .block)
  | n + 1, .conditional condition onTrue onFalse =>
      refine ((explains_evaluate n condition m).ask .condition).bind fun value m' ran => ?_
      split
      · next truthy => exact (explains_execute n onTrue m').ask (.onTrue ran truthy)
      · next falsy =>
          cases onFalse with
          | none => exact .pure _
          | some onFalse =>
              exact (explains_execute n onFalse m').ask (.onFalse ran (by simpa using falsy))
  | n + 1, .whileLoop condition body => exact (explains_loop n condition body m).ask .loop
  | n + 1, .funDecl declaration => trivial
  | n + 1, .returning _ none => exact .pure _
  | n + 1, .returning _ (some expr) =>
      exact ((explains_evaluate n expr m).ask .returned).bind fun _ _ _ => .pure _
  | n + 1, .classDecl name methods => trivial

/-- What stops a loop is raised at a moment that it reaches. -/
theorem explains_loop (n : Nat) (condition : Expr Reference) (body : Stmt Reference) (m : Machine) :
    Explains distances ⟨n, .loop condition body, m⟩ (loop distances n condition body) m := by
  match n with
  | 0 => exact ⟨_, .refl, .exhausted⟩
  | n + 1 =>
      refine ((explains_evaluate n condition m).ask .guard).bind fun value m' ran => ?_
      split
      · next truthy =>
          refine ((explains_execute n body m').ask (.round ran truthy)).bind
            fun completion m'' ran' => ?_
          cases completion with
          | normal => exact (explains_loop n condition body m'').ask (.again ran truthy ran')
          | returned value => exact .pure _
      · exact .pure _

/-- What stops a row of statements is raised at a moment that it reaches. -/
theorem explains_executeAll (n : Nat) (stmts : List (Stmt Reference)) (m : Machine) :
    Explains distances ⟨n, .executeAll stmts, m⟩ (executeAll distances n stmts) m := by
  match n, stmts with
  | 0, _ => exact ⟨_, .refl, .exhausted⟩
  | n + 1, [] => exact .pure _
  | n + 1, first :: rest =>
      refine ((explains_execute n first m).ask .firstStmt).bind fun completion m' ran => ?_
      cases completion with
      | normal => exact (explains_executeAll n rest m').ask (.otherStmts ran)
      | returned value => exact .pure _

end

end Lox
