/-
# Lines only show in errors

A program whose tokens stand on other lines does the same, on a memory in which the
tokens of all functions stand on these lines too.  It prints the same, and if it is
stopped, then by the same interrupt, of which a run-time error is on the new line of
the token at which it was noticed (`Lexical.Relined`).

The new lines are again given by a function of the old ones, about which nothing
else is known.  In particular tokens that stood on different lines may come to stand
on one.
-/

import Lox.Proofs.Execution
import Lox.Proofs.Lexical
import Lox.Proofs.Lines

namespace Lox

section Values

variable {ρ γ : Type} (f : Nat → Nat)

/-- The same function with its tokens on other lines. -/
def ClosureOf.relined (closure : ClosureOf ρ γ) : ClosureOf ρ γ :=
  { closure with declaration := Stmt.functionRelined f closure.declaration }

/-- The same class with its tokens on other lines. -/
def ClassOf.relined (cls : ClassOf ρ γ) : ClassOf ρ γ :=
  { cls with methods := Stmt.methodsRelined f cls.methods }

/-- The same instance of a class with its tokens on other lines. -/
def InstanceOf.relined (object : InstanceOf ρ γ) : InstanceOf ρ γ :=
  { object with ofClass := object.ofClass.relined f }

/-- The same value with its tokens on other lines. -/
def ValueOf.relined : ValueOf ρ γ → ValueOf ρ γ
  | .function closure => .function (closure.relined f)
  | .classValue cls => .classValue (cls.relined f)
  | .instanceValue object => .instanceValue (object.relined f)
  | value => value

/-- The same interrupt, on another line if it has one. -/
def Interrupt.relined : Interrupt → Interrupt
  | .runtime error => .runtime { error with line := f error.line }
  | interrupt => interrupt

variable {f}

theorem FunctionDecl.name_relined (declaration : FunctionDecl ρ) :
    (Stmt.functionRelined f declaration).name.lexeme = declaration.name.lexeme := by
  cases declaration
  rfl

theorem ClassOf.method?_relined (cls : ClassOf ρ γ) (name : String) :
    (cls.relined f).method? name = (cls.method? name).map (Stmt.functionRelined f) :=
  ClassOf.method?_eq_map (Stmt.methodsRelined_eq_map cls.methods)
    FunctionDecl.name_relined name

namespace ValueOf

variable (value left right : ValueOf ρ γ)

/-- Tokens that are put on other lines and then back are where they were. -/
theorem relined_back {g : Nat → Nat} (back : g ∘ f = id) :
    (value.relined f).relined g = value := by
  cases value with
  | function closure =>
      obtain ⟨identity, declaration, home⟩ := closure
      simp only [relined, ClosureOf.relined, Stmt.functionRelined_functionRelined, back,
        Stmt.functionRelined_id]
  | classValue cls =>
      obtain ⟨identity, name, methods, home⟩ := cls
      simp only [relined, ClassOf.relined, Stmt.methodsRelined_methodsRelined, back,
        Stmt.methodsRelined_id]
  | instanceValue object =>
      obtain ⟨identity, name, methods, home⟩ := object
      simp only [relined, InstanceOf.relined, ClassOf.relined, Stmt.methodsRelined_methodsRelined,
        back, Stmt.methodsRelined_id]
  | _ => rfl

theorem ofLiteral_relined (literal : Literal) :
    (ofLiteral literal : ValueOf ρ γ).relined f = ofLiteral literal := by
  cases literal <;> rfl

theorem isTruthy_relined : (value.relined f).isTruthy = value.isTruthy := by
  cases value <;> rfl

theorem equals_relined : (left.relined f).equals (right.relined f) = left.equals right := by
  cases left <;> cases right <;> rfl

theorem display_relined : (value.relined f).display = value.display := by
  cases value with
  | function closure =>
      rw [relined, display, ClosureOf.relined, FunctionDecl.name_relined]
      rfl
  | _ => rfl

end ValueOf

/-- Operators do not look at lines, neither at their own nor at those of their
operands. -/
theorem prefixValue_relined (operator : Token) (operand : ValueOf ρ γ) :
    prefixValue (operator.relined f) (operand.relined f) =
      (prefixValue operator operand).map (ValueOf.relined f) := by
  have same : (operator.relined f).isSymbol .bang = operator.isSymbol .bang := rfl
  unfold prefixValue
  rw [operand.isTruthy_relined, same]
  split
  · rfl
  · cases operand <;> rfl

theorem sumValue_relined (left right : ValueOf ρ γ) :
    sumValue (left.relined f) (right.relined f) =
      (sumValue left right).map (ValueOf.relined f) := by
  cases left <;> cases right <;> rfl

theorem arithmeticValue_relined (operator : Token) (left right : Float) :
    (arithmeticValue (operator.relined f) left right : Except RuntimeFault (ValueOf ρ γ)) =
      (arithmeticValue operator left right).map (ValueOf.relined f) := by
  have same : (operator.relined f).kind = operator.kind := rfl
  unfold arithmeticValue
  rw [same]
  split <;> rfl

theorem infixValue_relined (operator : Token) (left right : ValueOf ρ γ) :
    infixValue (operator.relined f) (left.relined f) (right.relined f) =
      (infixValue operator left right).map (ValueOf.relined f) := by
  have same : (operator.relined f).kind = operator.kind := rfl
  unfold infixValue
  rw [same, ValueOf.equals_relined]
  split
  · rfl
  · rfl
  · exact sumValue_relined left right
  · cases left with
    | number left =>
        cases right with
        | number right => exact arithmeticValue_relined operator left right
        | _ => rfl
    | _ => rfl

theorem settles_relined (operator : Token) (left : ValueOf ρ γ) :
    settles (operator.relined f) (left.relined f) = settles operator left := by
  have same : (operator.relined f).isKeyword .orWord = operator.isKeyword .orWord := rfl
  rw [settles, settles, left.isTruthy_relined, same]

end Values

namespace Lexical

variable {f : Nat → Nat} {α β : Type}

/-- The same completion with its tokens on other lines. -/
def Completion.relined (f : Nat → Nat) : Completion → Completion
  | normal place => normal place
  | returned value => returned (value.relined f)

/-- The same memory with its tokens on other lines. -/
structure Memory.Relined (f : Nat → Nat) (memory image : Memory) : Prop where
  cells : image.cells = memory.cells.map (Option.map (ValueOf.relined f))
  globals : ∀ name : String, image.globals[name]? = memory.globals[name]?.map (ValueOf.relined f)
  instances : image.fields.size = memory.fields.size
  fields : ∀ (identity : Nat) (name : String), image.fields[identity]?.bind (·[name]?) =
    (memory.fields[identity]?.bind (·[name]?)).map (ValueOf.relined f)
  identity : image.nextIdentity = memory.nextIdentity
  console : image.console = memory.console
  clock : image.clock = memory.clock

/-- The second computation does what the first one does with its tokens on other
lines, on any memory with its tokens on these lines. -/
def Relined (f : Nat → Nat) (on : α → α) (computation image : Evaluation α) : Prop :=
  ∀ memory memory', Memory.Relined f memory memory' →
    match computation memory, image memory' with
    | .ok value later, .ok value' later' => value' = on value ∧ Memory.Relined f later later'
    | .error interrupt later, .error interrupt' later' =>
        interrupt' = interrupt.relined f ∧ Memory.Relined f later later'
    | _, _ => False

namespace Relined

theorem pure {on : α → α} (value : α) :
    Relined f on (Pure.pure value) (Pure.pure (on value)) :=
  fun _ _ memories => ⟨rfl, memories⟩

theorem throw {on : α → α} (interrupt : Interrupt) :
    Relined f on (MonadExcept.throw interrupt) (MonadExcept.throw (interrupt.relined f)) :=
  fun _ _ memories => ⟨rfl, memories⟩

theorem fail {on : α → α} (place : Token) (fault : RuntimeFault) :
    Relined f on (Lexical.fail place fault) (Lexical.fail (place.relined f) fault) :=
  fun _ _ memories => ⟨rfl, memories⟩

theorem bind {on : α → α} {on' : β → β} {computation image : Evaluation α}
    {next next' : α → Evaluation β} (before : Relined f on computation image)
    (behind : ∀ value, Relined f on' (next value) (next' (on value))) :
    Relined f on' (computation >>= next) (image >>= next') := by
  intro memory memory' memories
  have first := before memory memory' memories
  show match EStateM.bind computation next memory, EStateM.bind image next' memory' with
    | .ok value later, .ok value' later' => _
    | .error interrupt later, .error interrupt' later' => _
    | _, _ => False
  rw [EStateM.bind, EStateM.bind]
  split at first
  · next ran ran' =>
      obtain ⟨rfl, memories⟩ := first
      rw [ran, ran']
      exact behind _ _ _ memories
  · next ran ran' =>
      rw [ran, ran']
      exact first
  · exact first.elim

/-- A step that looks at the memory. -/
theorem get_bind {on : α → α} {next next' : Memory → Evaluation α}
    (behind : ∀ memory memory', Memory.Relined f memory memory' →
      Relined f on (next memory) (next' memory')) :
    Relined f on (get >>= next) (get >>= next') :=
  fun memory memory' memories => behind memory memory' memories memory memory' memories

/-- A step that changes the memory and has a value. -/
theorem step {on : α → α} {change change' : Memory → α × Memory}
    (value : ∀ memory memory', Memory.Relined f memory memory' →
      (change' memory').1 = on (change memory).1)
    (memories : ∀ memory memory', Memory.Relined f memory memory' →
      Memory.Relined f (change memory).2 (change' memory').2) :
    Relined f on (modifyGet change) (modifyGet change') :=
  fun memory memory' same => ⟨value memory memory' same, memories memory memory' same⟩

/-- A step that only changes the memory. -/
theorem change {change change' : Memory → Memory}
    (memories : ∀ memory memory', Memory.Relined f memory memory' →
      Memory.Relined f (change memory) (change' memory')) :
    Relined f id (modify change) (modify change') :=
  fun memory memory' same => ⟨rfl, memories memory memory' same⟩

/-- A step after which this is the memory. -/
theorem put {memory memory' : Memory} (memories : Memory.Relined f memory memory') :
    Relined f id (set memory) (set memory') :=
  fun _ _ _ => ⟨rfl, memories⟩

theorem require (place : Token) {result result' : Except RuntimeFault Value}
    (same : result' = result.map (ValueOf.relined f)) :
    Relined f (ValueOf.relined f) (Lexical.require place result)
      (Lexical.require (place.relined f) result') := by
  subst same
  cases result with
  | ok value => exact .pure value
  | error fault => exact .fail place fault

theorem checkArity (place : Token) {expected expected' given given' : Nat}
    (sameExpected : expected' = expected) (sameGiven : given' = given) :
    Relined f id (Lexical.checkArity place expected given)
      (Lexical.checkArity (place.relined f) expected' given') := by
  subst sameExpected sameGiven
  unfold Lexical.checkArity
  split
  · exact .pure ()
  · exact .fail place _

theorem normal (place : Place) : Relined f (Completion.relined f)
    (Pure.pure (Completion.normal place)) (Pure.pure (Completion.normal place)) :=
  .pure (Completion.normal place)

theorem returned (value : Value) : Relined f (Completion.relined f)
    (Pure.pure (Completion.returned value)) (Pure.pure (Completion.returned (value.relined f))) :=
  .pure (Completion.returned value)

end Relined

/-! ## Names -/

namespace Memory.Relined

variable {memory memory' : Memory}

theorem find? (memories : Memory.Relined f memory memory') (env : Env) (name : String) :
    memory'.find? env name = (memory.find? env name).map (ValueOf.relined f) := by
  rw [Memory.find?, Memory.find?]
  cases env.lookup name with
  | none => exact memories.globals name
  | some cell =>
      dsimp only
      rw [cell?, cell?, memories.cells, Array.getElem?_map]
      cases memory.cells[cell]? <;> rfl

theorem write (memories : Memory.Relined f memory memory') (env : Env) (name : String)
    (value : Value) :
    Memory.Relined f (memory.write env name value) (memory'.write env name (value.relined f)) := by
  rw [Memory.write, Memory.write]
  cases env.lookup name with
  | none =>
      refine { memories with globals := fun other => ?_ }
      rw [Bindings.getElem?_insert, Bindings.getElem?_insert, memories.globals]
      split <;> rfl
  | some cell =>
      refine { memories with cells := ?_ }
      dsimp only
      rw [memories.cells, Array.map_setIfInBounds]
      rfl

theorem push (memories : Memory.Relined f memory memory') (value : Option Value) :
    Memory.Relined f { memory with cells := memory.cells.push value }
      { memory' with cells := memory'.cells.push (value.map (ValueOf.relined f)) } :=
  { memories with cells := by rw [memories.cells, Array.map_push] }

theorem setField (memories : Memory.Relined f memory memory') (identity : Nat) (name : String)
    (value : Value) :
    Memory.Relined f
      { memory with fields := memory.fields.modify identity (·.insert name value) }
      { memory' with
        fields := memory'.fields.modify identity (·.insert name (value.relined f)) } := by
  refine { memories with instances := ?_, fields := fun other key => ?_ }
  · simp only [Array.size_modify, memories.instances]
  · rw [Bindings.getElem?_modify_insert, Bindings.getElem?_modify_insert, memories.instances]
    split
    · rfl
    · exact memories.fields other key

theorem newInstance (memories : Memory.Relined f memory memory') :
    Memory.Relined f { memory with fields := memory.fields.push {} }
      { memory' with fields := memory'.fields.push {} } := by
  refine { memories with instances := ?_, fields := fun other key => ?_ }
  · simp only [Array.size_push, memories.instances]
  · have before := memories.fields other key
    simp only [Array.getElem?_push, memories.instances]
    split
    · rfl
    · exact before

end Memory.Relined

/-! ## Single steps -/

theorem relined_lookUp (env : Env) (name : Token) :
    Relined f (ValueOf.relined f) (lookUp env name) (lookUp env (name.relined f)) := by
  refine .get_bind fun memory memory' memories => ?_
  rw [Token.lexeme_relined, memories.find?]
  cases memory.find? env name.lexeme with
  | some value => exact .pure value
  | none => exact .fail name _

theorem relined_assign (env : Env) (name : Token) (value : Value) :
    Relined f id (assign env name value) (assign env (name.relined f) (value.relined f)) := by
  refine .get_bind fun memory memory' memories => ?_
  rw [Token.lexeme_relined, memories.find?, Option.isSome_map]
  split
  · exact .change fun _ _ memories => memories.write env name.lexeme value
  · exact .fail name _

theorem relined_extend (env : Env) (name : String) (value : Option Value) :
    Relined f id (extend env name value) (extend env name (value.map (ValueOf.relined f))) := by
  refine .step (fun memory memory' memories => ?_) fun _ _ memories => memories.push value
  dsimp only
  rw [memories.cells, Array.size_map]
  rfl

theorem relined_bindParameters (env : Env) (pairs : List (Token × Value)) :
    Relined f id (bindParameters env pairs)
      (bindParameters env (pairs.map (Prod.map (Token.relined f) (ValueOf.relined f)))) := by
  induction pairs generalizing env with
  | nil => exact .pure env
  | cons pair pairs ih =>
      exact (relined_extend env pair.1.lexeme (some pair.2)).bind fun extended => ih extended

theorem relined_declare (place : Place) (name : String) :
    Relined f id (declare place name) (declare place name) := by
  cases place with
  | top => exact .pure Place.top
  | inside env => exact (relined_extend env name none).bind fun _ => .pure _

theorem relined_define (place : Place) (name : String) (value : Value) :
    Relined f id (define place name value) (define place name (value.relined f)) :=
  .change fun _ _ memories => memories.write place.env name value

theorem relined_freshIdentity : Relined f id freshIdentity freshIdentity :=
  .step (fun _ _ memories => memories.identity)
    fun _ _ memories => { memories with identity := congrArg (· + 1) memories.identity }

theorem relined_newClosure (declaration : FunctionDecl Unit) (env : Env) :
    Relined f (ValueOf.relined f) (newClosure declaration env)
      (newClosure (Stmt.functionRelined f declaration) env) :=
  relined_freshIdentity.bind fun identity =>
    .pure (ValueOf.function ⟨identity, declaration, env⟩)

theorem relined_newClass (name : String) (methods : List (FunctionDecl Unit)) (env : Env) :
    Relined f (ValueOf.relined f) (newClass name methods env)
      (newClass name (Stmt.methodsRelined f methods) env) :=
  relined_freshIdentity.bind fun identity =>
    .pure (ValueOf.classValue ⟨identity, name, methods, env⟩)

theorem relined_newInstance (cls : Class) :
    Relined f (ValueOf.relined f) (newInstance cls) (newInstance (cls.relined f)) := by
  refine .step (fun memory memory' memories => ?_) fun _ _ memories => memories.newInstance
  dsimp only
  rw [memories.instances]
  rfl

theorem relined_bindMethod (object : Instance) (method : FunctionDecl Unit) :
    Relined f (ValueOf.relined f) (bindMethod object method)
      (bindMethod (object.relined f) (Stmt.functionRelined f method)) :=
  (relined_extend object.ofClass.home "this" (some (.instanceValue object))).bind fun env =>
    relined_newClosure method env

theorem relined_property (object : Instance) (name : Token) :
    Relined f (ValueOf.relined f) (property object name)
      (property (object.relined f) (name.relined f)) := by
  refine .get_bind fun memory memory' memories => ?_
  rw [Token.lexeme_relined]
  have field := memories.fields object.identity name.lexeme
  have method : (object.relined f).ofClass.method? name.lexeme =
      (object.ofClass.method? name.lexeme).map (Stmt.functionRelined f) :=
    ClassOf.method?_relined _ _
  have identity : (object.relined f).identity = object.identity := rfl
  rw [method, identity, field]
  cases memory.fields[object.identity]?.bind (·[name.lexeme]?) with
  | some value => exact .pure value
  | none =>
      cases object.ofClass.method? name.lexeme with
      | some method => exact relined_bindMethod object method
      | none => exact .fail name _

theorem relined_setField (object : Instance) (name : String) (value : Value) :
    Relined f id (setField object name value)
      (setField (object.relined f) name (value.relined f)) :=
  .change fun _ _ memories => memories.setField object.identity name value

theorem relined_print (value : Value) : Relined f id (print value) (print (value.relined f)) := by
  refine .get_bind fun memory memory' memories => ?_
  rw [value.display_relined, memories.console]
  rcases memory.console.print value.display with ⟨fault, console⟩
  have written : Memory.Relined f { memory with console := console }
    { memory' with console := console } := { memories with console := rfl }
  refine (Relined.put written).bind fun _ => ?_
  cases fault with
  | none => exact .pure ()
  | some fault => exact .throw _

theorem relined_readClock : Relined f (ValueOf.relined f) readClock readClock := by
  refine .step (fun memory memory' memories => ?_)
    fun _ _ memories => { memories with clock := congrArg Clock.afterReading memories.clock }
  dsimp only
  rw [memories.clock]
  rfl

/-! ## Whole programs -/

mutual

/-- An expression on other lines evaluates to the same value on these lines. -/
theorem relined_evaluate (n : Nat) (env : Env) (expr : Expr Unit) :
    Relined f (ValueOf.relined f) (evaluate n env expr) (evaluate n env (expr.relined f)) := by
  match n, expr with
  | 0, _ => exact .throw _
  | n + 1, .literal value =>
      have same : Relined f (ValueOf.relined f) (pure (ValueOf.ofLiteral value))
        (pure ((ValueOf.ofLiteral value : Value).relined f)) := .pure _
      rwa [ValueOf.ofLiteral_relined] at same
  | n + 1, .grouping inner => exact relined_evaluate n env inner
  | n + 1, .unary operator operand =>
      exact (relined_evaluate n env operand).bind fun operand =>
        .require operator (prefixValue_relined operator operand)
  | n + 1, .binary left operator right =>
      exact (relined_evaluate n env left).bind fun left =>
        (relined_evaluate n env right).bind fun right =>
          .require operator (infixValue_relined operator left right)
  | n + 1, .logical left operator right =>
      refine (relined_evaluate n env left).bind fun left => ?_
      rw [settles_relined]
      split
      · exact .pure left
      · exact relined_evaluate n env right
  | n + 1, .variable _ name => exact relined_lookUp env name
  | n + 1, .this _ keyword => exact relined_lookUp env keyword
  | n + 1, .assign _ name value =>
      exact (relined_evaluate n env value).bind fun value =>
        (relined_assign env name value).bind fun _ => .pure value
  | n + 1, .call callee paren arguments =>
      exact (relined_evaluate n env callee).bind fun callee =>
        (relined_evaluateAll n env arguments).bind fun arguments =>
          relined_call n callee paren arguments
  | n + 1, .get object name =>
      refine (relined_evaluate n env object).bind fun object => ?_
      cases object with
      | instanceValue object => exact relined_property object name
      | _ => exact .fail name _
  | n + 1, .set object name value =>
      refine (relined_evaluate n env object).bind fun object => ?_
      cases object with
      | instanceValue object =>
          exact (relined_evaluate n env value).bind fun value =>
            (relined_setField object name.lexeme value).bind fun _ => .pure value
      | _ => exact .fail name _

theorem relined_evaluateAll (n : Nat) (env : Env) (exprs : List (Expr Unit)) :
    Relined f (List.map (ValueOf.relined f)) (evaluateAll n env exprs)
      (evaluateAll n env (Expr.allRelined f exprs)) := by
  match n, exprs with
  | 0, _ => exact .throw _
  | n + 1, [] => exact .pure []
  | n + 1, first :: rest =>
      exact (relined_evaluate n env first).bind fun first =>
        (relined_evaluateAll n env rest).bind fun rest => .pure (first :: rest)

/-- A call from another line of a function on other lines. -/
theorem relined_call (n : Nat) (callee : Value) (paren : Token) (arguments : List Value) :
    Relined f (ValueOf.relined f) (call n callee paren arguments)
      (call n (callee.relined f) (paren.relined f) (arguments.map (ValueOf.relined f))) := by
  match n, callee with
  | 0, _ => exact .throw _
  | n + 1, .function ⟨identity, .mk name parameters body, home⟩ =>
      refine (Relined.checkArity paren (List.length_map _) (List.length_map _)).bind fun _ => ?_
      have bound := relined_bindParameters (f := f) home (parameters.zip arguments)
      rw [← List.zip_map] at bound
      refine bound.bind fun env => ?_
      refine (relined_executeAll n (.inside env) body).bind fun completion => ?_
      cases completion with
      | normal place => exact .pure ValueOf.nil
      | returned value => exact .pure value
  | n + 1, .native .clock =>
      exact (Relined.checkArity paren rfl (List.length_map _)).bind fun _ => relined_readClock
  | n + 1, .classValue cls =>
      exact (Relined.checkArity paren rfl (List.length_map _)).bind fun _ => relined_newInstance cls
  | n + 1, .nil => exact .fail paren _
  | n + 1, .boolean _ => exact .fail paren _
  | n + 1, .number _ => exact .fail paren _
  | n + 1, .string _ => exact .fail paren _
  | n + 1, .instanceValue _ => exact .fail paren _

/-- A statement on other lines ends in the same way. -/
theorem relined_execute (n : Nat) (place : Place) (stmt : Stmt Unit) :
    Relined f (Completion.relined f) (execute n place stmt)
      (execute n place (stmt.relined f)) := by
  match n, stmt with
  | 0, _ => exact .throw _
  | n + 1, .expression expr =>
      exact (relined_evaluate n place.env expr).bind fun _ => .normal place
  | n + 1, .print expr =>
      exact (relined_evaluate n place.env expr).bind fun value =>
        (relined_print value).bind fun _ => .normal place
  | n + 1, .varDecl name none =>
      exact (relined_declare place name.lexeme).bind fun behind =>
        (relined_define behind name.lexeme .nil).bind fun _ => .normal behind
  | n + 1, .varDecl name (some initializer) =>
      exact (relined_declare place name.lexeme).bind fun behind =>
        (relined_evaluate n behind.env initializer).bind fun value =>
          (relined_define behind name.lexeme value).bind fun _ => .normal behind
  | n + 1, .block body =>
      refine (relined_executeAll n (.inside place.env) body).bind fun completion => ?_
      cases completion with
      | normal => exact .normal place
      | returned value => exact .returned value
  | n + 1, .conditional condition onTrue none =>
      refine (relined_evaluate n place.env condition).bind fun condition => ?_
      rw [condition.isTruthy_relined]
      split
      · exact relined_execute n place onTrue
      · exact .normal place
  | n + 1, .conditional condition onTrue (some onFalse) =>
      refine (relined_evaluate n place.env condition).bind fun condition => ?_
      rw [condition.isTruthy_relined]
      split
      · exact relined_execute n place onTrue
      · exact relined_execute n place onFalse
  | n + 1, .whileLoop condition body => exact relined_loop n place condition body
  | n + 1, .funDecl (.mk name parameters body) =>
      exact (relined_declare place name.lexeme).bind fun behind =>
        (relined_newClosure (.mk name parameters body) behind.env).bind fun function =>
          (relined_define behind name.lexeme function).bind fun _ => .normal behind
  | n + 1, .returning _ none => exact .returned .nil
  | n + 1, .returning _ (some expr) =>
      exact (relined_evaluate n place.env expr).bind fun value => .returned value
  | n + 1, .classDecl name methods =>
      exact (relined_declare place name.lexeme).bind fun behind =>
        (relined_newClass name.lexeme methods behind.env).bind fun cls =>
          (relined_define behind name.lexeme cls).bind fun _ => .normal behind

theorem relined_loop (n : Nat) (place : Place) (condition : Expr Unit) (body : Stmt Unit) :
    Relined f (Completion.relined f) (loop n place condition body)
      (loop n place (condition.relined f) (body.relined f)) := by
  match n with
  | 0 => exact .throw _
  | n + 1 =>
      refine (relined_evaluate n place.env condition).bind fun goesOn => ?_
      rw [goesOn.isTruthy_relined]
      split
      · refine (relined_execute n place body).bind fun completion => ?_
        cases completion with
        | normal behind => exact relined_loop n behind condition body
        | returned value => exact .returned value
      · exact .normal place

theorem relined_executeAll (n : Nat) (place : Place) (stmts : List (Stmt Unit)) :
    Relined f (Completion.relined f) (executeAll n place stmts)
      (executeAll n place (Stmt.allRelined f stmts)) := by
  match n, stmts with
  | 0, _ => exact .throw _
  | n + 1, [] => exact .normal place
  | n + 1, first :: rest =>
      refine (relined_execute n place first).bind fun completion => ?_
      cases completion with
      | normal behind => exact relined_executeAll n behind rest
      | returned value => exact .returned value

end

/-- The statements of a text on other lines do the same. -/
theorem relined_interpret (allowance : Nat) (program : List (Stmt Unit)) :
    Relined f id (interpret allowance program)
      (interpret allowance (Stmt.allRelined f program)) := by
  induction program with
  | nil => exact .pure ()
  | cons first rest ih => exact (relined_execute allowance .top first).bind fun _ => ih

/-- What is run of a text on other lines does the same. -/
theorem relined_computation (entry : Entry) (allowance : Nat) (program : List (Stmt Unit)) :
    Relined f id (computation entry allowance program)
      (computation entry allowance (Stmt.allRelined f program)) := by
  cases entry with
  | script => exact relined_interpret allowance program
  | line =>
      have interpreted := relined_interpret (f := f) allowance program
      cases program with
      | nil => exact interpreted
      | cons first rest =>
          cases first with
          | expression expr =>
              cases rest with
              | nil =>
                  exact (relined_evaluate allowance [] expr).bind fun value => relined_print value
              | cons second rest => exact interpreted
          | varDecl name initializer => cases initializer <;> exact interpreted
          | conditional condition onTrue onFalse => cases onFalse <;> exact interpreted
          | returning keyword value => cases value <;> exact interpreted
          | _ => exact interpreted

namespace Memory

variable {memory memory' : Memory}

/-- The memory with its tokens on other lines. -/
def relined (f : Nat → Nat) (memory : Memory) : Memory where
  cells := memory.cells.map (Option.map (ValueOf.relined f))
  globals := memory.globals.map fun _ => ValueOf.relined f
  fields := memory.fields.map fun bindings => bindings.map fun _ => ValueOf.relined f
  nextIdentity := memory.nextIdentity
  console := memory.console
  clock := memory.clock

/-- A memory whose tokens are put on other lines and then back is as it was. -/
theorem relined_back {g : Nat → Nat} (memory : Memory) (back : g ∘ f = id) :
    Memory.Relined g (memory.relined f) memory := by
  have values : ValueOf.relined g ∘ ValueOf.relined f = (id : Value → Value) :=
    funext fun value => value.relined_back back
  constructor
  · rw [relined, Array.map_map, Option.map_comp_map, values, Option.map_id, Array.map_id]
  · intro name
    rw [relined, Std.TreeMap.getElem?_map, Option.map_map, values, Option.map_id, id]
  · simp only [relined, Array.size_map]
  · intro identity name
    rw [relined, Array.getElem?_map]
    cases memory.fields[identity]? with
    | none => rfl
    | some bindings =>
        simp only [Option.map_some, Option.bind_some]
        rw [Std.TreeMap.getElem?_map, Option.map_map, values, Option.map_id, id]
  · rfl
  · rfl
  · rfl

/-- A run on other lines prints the same, and is stopped by the same interrupt. -/
theorem Relined.perform {on : α → α} {computation image : Evaluation α}
    (memories : Memory.Relined f memory memory')
    (relined : Lexical.Relined f on computation image) :
    (memory'.perform image).2 = (memory.perform computation).2.map (Interrupt.relined f) ∧
      Memory.Relined f (memory.perform computation).1 (memory'.perform image).1 := by
  have both := relined memory memory' memories
  rw [Memory.perform, Memory.perform, EStateM.run, EStateM.run]
  split at both
  · next ran ran' =>
      rw [ran, ran']
      exact ⟨rfl, both.2⟩
  · next ran ran' =>
      obtain ⟨rfl, later⟩ := both
      rw [ran, ran']
      exact ⟨rfl, later⟩
  · exact both.elim

end Memory

end Lexical

end Lox
