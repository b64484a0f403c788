/-
# Computations on the machine

`Execution.Ensures` says what holds of the outcome of a computation from a
machine, whether it finishes or is interrupted.  With one rule for a
computation behind another one, what a program does is told from what its steps
do.

As a first use, whatever runs and however it ends, the current frame is the
same one as before, and the frames are kept; an expression adds no name to any
of them, and a statement only to the current one.  This holds of all trees and
of all machines.
-/

import Mathlib.Data.List.Nodup
import Lox.Evaluation
import Lox.Proofs.Frame

namespace Lox

namespace Execution

variable {α β : Type}

/-- The outcome of a computation satisfies one condition if it finishes, and
another one if it is interrupted. -/
def Ensures (computation : Execution α) (machine : Machine) (ok : α → Machine → Prop)
    (fault : Interrupt → Machine → Prop) : Prop :=
  match computation machine with
  | .ok value machine => ok value machine
  | .error interrupt machine => fault interrupt machine

variable {computation : Execution α} {machine machine' : Machine} {ok : α → Machine → Prop}
  {fault : Interrupt → Machine → Prop}

theorem Ensures.finished {value : α} (ensures : Ensures computation machine ok fault)
    (ran : computation machine = .ok value machine') : ok value machine' := by
  rwa [Ensures, ran] at ensures

theorem Ensures.stopped {interrupt : Interrupt} (ensures : Ensures computation machine ok fault)
    (ran : computation machine = .error interrupt machine') : fault interrupt machine' := by
  rwa [Ensures, ran] at ensures

theorem Ensures.mono {ok' : α → Machine → Prop} {fault' : Interrupt → Machine → Prop}
    (ensures : Ensures computation machine ok fault)
    (finished : ∀ value machine, ok value machine → ok' value machine)
    (stopped : ∀ interrupt machine, fault interrupt machine → fault' interrupt machine) :
    Ensures computation machine ok' fault' := by
  rw [Ensures] at ensures ⊢
  split at ensures
  · exact finished _ _ ensures
  · exact stopped _ _ ensures

/-- A computation behind another one starts on the machine that it left. -/
theorem ensures_bind {next : α → Execution β} {ok : β → Machine → Prop}
    (finished : ∀ value machine', computation machine = .ok value machine' →
      Ensures (next value) machine' ok fault)
    (stopped : ∀ interrupt machine', computation machine = .error interrupt machine' →
      fault interrupt machine') : Ensures (computation >>= next) machine ok fault := by
  show match EStateM.bind computation next machine with
    | .ok value machine => ok value machine
    | .error interrupt machine => fault interrupt machine
  rw [EStateM.bind]
  cases ran : computation machine with
  | ok value machine' => exact finished value machine' ran
  | error interrupt machine' => exact stopped interrupt machine' ran

/-- A step that looks at the machine. -/
theorem get_bind_apply (next : Machine → Execution α) (machine : Machine) :
    (get >>= next) machine = next machine machine :=
  rfl

/-- What runs in another frame is left in the frame before it. -/
theorem ensures_within {frame : FrameId}
    (inside : Ensures computation { machine with current := frame }
      (fun value later => ok value { later with current := machine.current })
      fun interrupt later => fault interrupt { later with current := machine.current }) :
    Ensures (within frame computation) machine ok fault := by
  rw [Ensures] at inside ⊢
  simp only [within]
  cases ran : computation { machine with current := frame } with
  | ok value later =>
      rw [ran] at inside
      exact inside
  | error interrupt later =>
      rw [ran] at inside
      exact inside

theorem of_checkArity {place : Token} {expected given : Nat} {later : Machine} {nothing : Unit}
    (checked : checkArity place expected given machine = .ok nothing later) :
    given = expected ∧ later = machine := by
  unfold checkArity at checked
  split at checked
  · next same =>
      cases checked
      exact ⟨same, rfl⟩
  · cases checked

end Execution

open Execution

/-- The machine when a new frame is entered. -/
def Machine.entering (machine : Machine) (enclosing : FrameId) (bindings : Bindings Value) :
    Machine :=
  { machine with
    frames := machine.frames.push (some enclosing) bindings, current := machine.frames.nextId }

/-- The later machine is in the same frame and has kept all frames; names may
have been added to the current one. -/
structure Machine.Keeps (opens : Bool) (earlier later : Machine) : Prop where
  current : later.current = earlier.current
  frames : FrameStore.Keeps (if opens then some earlier.current else none) earlier.frames
    later.frames

namespace Machine.Keeps

variable {opens : Bool} {first second third : Machine}

theorem refl (machine : Machine) : Keeps opens machine machine :=
  ⟨rfl, .refl _⟩

theorem trans (before : Keeps opens first second) (behind : Keeps opens second third) :
    Keeps opens first third := by
  have frames := behind.frames
  rw [before.current] at frames
  exact ⟨behind.current.trans before.current, before.frames.trans frames⟩

theorem opening (keeps : Keeps false first second) : Keeps opens first second :=
  ⟨keeps.current, keeps.frames.opening⟩

end Machine.Keeps

namespace Execution

variable {α β : Type} {opens : Bool}

/-- However it ends, a computation keeps the frames. -/
def Stays (opens : Bool) (computation : Execution α) : Prop :=
  ∀ machine, Ensures computation machine (fun _ later => machine.Keeps opens later)
    fun _ later => machine.Keeps opens later

theorem stays_pure (value : α) : Stays opens (pure value) :=
  fun machine => .refl machine

theorem stays_throw (interrupt : Interrupt) : Stays opens (throw interrupt : Execution α) :=
  fun machine => .refl machine

theorem Stays.bind {computation : Execution α} {next : α → Execution β}
    (before : Stays opens computation) (behind : ∀ value, Stays opens (next value)) :
    Stays opens (computation >>= next) := fun machine =>
  ensures_bind
    (fun value _ ran =>
      have kept := (before machine).finished ran
      (behind value _).mono (fun _ _ => kept.trans) fun _ _ => kept.trans)
    fun _ _ ran => (before machine).stopped ran

theorem Stays.opening {computation : Execution α} (stays : Stays false computation) :
    Stays opens computation :=
  fun machine => (stays machine).mono (fun _ _ => .opening) fun _ _ => .opening

theorem stays_get : Stays opens (get : Execution Machine) :=
  fun machine => .refl machine

theorem stays_fail (place : Token) (fault : RuntimeFault) :
    Stays opens (fail place fault : Execution α) :=
  stays_throw _

theorem stays_require (place : Token) (result : Except RuntimeFault α) :
    Stays opens (require place result) := by
  cases result with
  | ok value => exact stays_pure value
  | error fault => exact stays_fail place fault

theorem stays_checkArity (place : Token) (expected given : Nat) :
    Stays opens (checkArity place expected given) := by
  unfold checkArity
  split
  · exact stays_pure ()
  · exact stays_fail _ _

theorem stays_freshIdentity : Stays opens freshIdentity :=
  fun machine => ⟨rfl, .refl machine.frames⟩

theorem stays_newFrame (enclosing : FrameId) (bindings : Bindings Value) :
    Stays false (newFrame enclosing bindings) :=
  fun machine => ⟨rfl, .push machine.frames _ _⟩

theorem stays_define (name : String) (value : Value) : Stays true (define name value) :=
  fun machine => ⟨rfl, .define machine.frames name value⟩

theorem stays_lookUp (distance : Option Nat) (name : Token) :
    Stays opens (lookUp distance name) := by
  apply stays_get.bind
  intro machine
  dsimp only
  split
  · exact stays_pure _
  · exact stays_fail _ _

theorem stays_assign (distance : Option Nat) (name : Token) (value : Value) :
    Stays false (assign distance name value) := by
  intro machine
  apply ensures_bind
  · rintro _ _ ⟨⟩
    dsimp only
    split
    · next binder found =>
        have bound : machine.frames.binds binder name.lexeme = true := by
          cases distance with
          | none => exact FrameStore.binds_of_binder? found
          | some distance => exact (Option.filter_eq_some_iff.1 found).2
        exact ⟨rfl, .assign machine.frames bound value⟩
    · exact Machine.Keeps.refl machine
  · rintro _ _ ⟨⟩

theorem stays_newClosure (declaration : FunctionDecl Reference) (frame : FrameId) :
    Stays opens (newClosure declaration frame) :=
  stays_freshIdentity.bind fun _ => stays_pure _

theorem stays_newClass (name : String) (methods : List (FunctionDecl Reference)) :
    Stays opens (newClass name methods) :=
  stays_freshIdentity.bind fun _ => stays_get.bind fun _ => stays_pure _

theorem stays_newInstance (cls : Class) : Stays opens (newInstance cls) :=
  fun machine => ⟨rfl, .refl machine.frames⟩

theorem stays_bindMethod (object : Instance) (method : FunctionDecl Reference) :
    Stays false (bindMethod object method) :=
  (stays_newFrame _ _).bind fun _ => stays_newClosure _ _

theorem stays_property (object : Instance) (name : Token) : Stays false (property object name) := by
  apply stays_get.bind
  intro machine
  split
  · exact stays_pure _
  · split
    · exact stays_bindMethod _ _
    · exact stays_fail _ _

theorem stays_setField (object : Instance) (name : String) (value : Value) :
    Stays opens (setField object name value) :=
  fun machine => ⟨rfl, .refl machine.frames⟩

theorem stays_print (value : Value) : Stays opens (print value) := by
  intro machine
  unfold print
  apply ensures_bind
  · rintro _ _ ⟨⟩
    rcases machine.console.print value.display with ⟨fault, console⟩
    cases fault with
    | none => exact ⟨rfl, .refl machine.frames⟩
    | some fault => exact ⟨rfl, .refl machine.frames⟩
  · rintro _ _ ⟨⟩

theorem stays_readClock : Stays opens readClock :=
  fun machine => ⟨rfl, .refl machine.frames⟩

/-- What runs in a new frame adds names to no frame that was there. -/
theorem stays_inside {computation : Execution α} (enclosing : FrameId)
    (bindings : Bindings Value) (inside : Stays true computation) :
    Stays false (newFrame enclosing bindings >>= fun frame => within frame computation) := by
  intro machine
  apply ensures_bind
  · rintro _ _ ⟨⟩
    apply ensures_within
    exact (inside (machine.entering enclosing bindings)).mono
      (fun _ _ kept => ⟨rfl, kept.frames.within⟩) fun _ _ kept => ⟨rfl, kept.frames.within⟩
  · rintro _ _ ⟨⟩

end Execution

variable {distances : Distances}

mutual

/-- An expression adds no name to any frame. -/
theorem stays_evaluate (allowance : Nat) (expr : Expr Reference) :
    Stays false (evaluate distances allowance expr) := by
  match allowance, expr with
  | 0, _ => exact stays_throw _
  | allowance + 1, .literal value => exact stays_pure _
  | allowance + 1, .grouping inner => exact stays_evaluate allowance inner
  | allowance + 1, .unary operator operand =>
      exact (stays_evaluate allowance operand).bind fun _ => stays_require _ _
  | allowance + 1, .binary left operator right =>
      exact (stays_evaluate allowance left).bind fun _ =>
        (stays_evaluate allowance right).bind fun _ => stays_require _ _
  | allowance + 1, .logical left operator right =>
      apply (stays_evaluate allowance left).bind
      intro value
      split
      · exact stays_pure value
      · exact stays_evaluate allowance right
  | allowance + 1, .variable reference name => exact stays_lookUp _ name
  | allowance + 1, .this reference keyword => exact stays_lookUp _ keyword
  | allowance + 1, .assign reference name value =>
      exact (stays_evaluate allowance value).bind fun _ =>
        (stays_assign _ name _).bind fun _ => stays_pure _
  | allowance + 1, .call callee paren arguments =>
      exact (stays_evaluate allowance callee).bind fun _ =>
        (stays_evaluateAll allowance arguments).bind fun _ => stays_call allowance _ paren _
  | allowance + 1, .get object name =>
      apply (stays_evaluate allowance object).bind
      intro owner
      split
      · exact stays_property _ name
      · exact stays_fail _ _
  | allowance + 1, .set object name value =>
      apply (stays_evaluate allowance object).bind
      intro owner
      split
      · exact (stays_evaluate allowance value).bind fun _ =>
          (stays_setField _ _ _).bind fun _ => stays_pure _
      · exact stays_fail _ _

/-- A row of expressions adds no name to any frame. -/
theorem stays_evaluateAll (allowance : Nat) (exprs : List (Expr Reference)) :
    Stays false (evaluateAll distances allowance exprs) := by
  match allowance, exprs with
  | 0, _ => exact stays_throw _
  | allowance + 1, [] => exact stays_pure _
  | allowance + 1, first :: rest =>
      exact (stays_evaluate allowance first).bind fun _ =>
        (stays_evaluateAll allowance rest).bind fun _ => stays_pure _

/-- A call adds no name to any frame that was there before it. -/
theorem stays_call (allowance : Nat) (callee : Value) (paren : Token) (arguments : List Value) :
    Stays false (call distances allowance callee paren arguments) := by
  match allowance, callee with
  | 0, _ => exact stays_throw _
  | allowance + 1, .function closure =>
      apply (stays_checkArity _ _ _).bind
      intro _
      have ran := stays_inside closure.home
        (argumentBindings closure.declaration.parameters arguments)
        (stays_executeAll allowance closure.declaration.body)
      refine ran.bind fun completion => ?_
      cases completion with
      | normal => exact stays_pure _
      | returned value => exact stays_pure value
  | allowance + 1, .native .clock =>
      exact (stays_checkArity _ _ _).bind fun _ => stays_readClock
  | allowance + 1, .classValue cls =>
      exact (stays_checkArity _ _ _).bind fun _ => stays_newInstance cls
  | allowance + 1, .nil => exact stays_fail _ _
  | allowance + 1, .boolean _ => exact stays_fail _ _
  | allowance + 1, .number _ => exact stays_fail _ _
  | allowance + 1, .string _ => exact stays_fail _ _
  | allowance + 1, .instanceValue _ => exact stays_fail _ _

/-- A statement adds names to no frame but the current one. -/
theorem stays_execute (allowance : Nat) (stmt : Stmt Reference) :
    Stays true (execute distances allowance stmt) := by
  match allowance, stmt with
  | 0, _ => exact stays_throw _
  | allowance + 1, .expression expr =>
      exact (stays_evaluate allowance expr).opening.bind fun _ => stays_pure _
  | allowance + 1, .print expr =>
      exact (stays_evaluate allowance expr).opening.bind fun _ =>
        (stays_print _).bind fun _ => stays_pure _
  | allowance + 1, .varDecl name none =>
      exact (stays_define _ _).bind fun _ => stays_pure _
  | allowance + 1, .varDecl name (some initializer) =>
      exact (stays_evaluate allowance initializer).opening.bind fun _ =>
        (stays_define _ _).bind fun _ => stays_pure _
  | allowance + 1, .block body =>
      apply stays_get.bind
      intro machine
      exact (stays_inside machine.current {} (stays_executeAll allowance body)).opening
  | allowance + 1, .conditional condition onTrue onFalse =>
      apply (stays_evaluate allowance condition).opening.bind
      intro value
      split
      · exact stays_execute allowance onTrue
      · split
        · exact stays_execute allowance _
        · exact stays_pure _
  | allowance + 1, .whileLoop condition body => exact stays_loop allowance condition body
  | allowance + 1, .funDecl declaration =>
      exact stays_get.bind fun _ => (stays_newClosure _ _).bind fun _ =>
        (stays_define _ _).bind fun _ => stays_pure _
  | allowance + 1, .returning _ none => exact stays_pure _
  | allowance + 1, .returning _ (some expr) =>
      exact (stays_evaluate allowance expr).opening.bind fun _ => stays_pure _
  | allowance + 1, .classDecl name methods =>
      exact (stays_newClass _ _).bind fun _ => (stays_define _ _).bind fun _ => stays_pure _

/-- A loop adds names to no frame but the current one. -/
theorem stays_loop (allowance : Nat) (condition : Expr Reference) (body : Stmt Reference) :
    Stays true (loop distances allowance condition body) := by
  match allowance with
  | 0 => exact stays_throw _
  | allowance + 1 =>
      apply (stays_evaluate allowance condition).opening.bind
      intro value
      split
      · apply (stays_execute allowance body).bind
        intro completion
        cases completion with
        | normal => exact stays_loop allowance condition body
        | returned value => exact stays_pure _
      · exact stays_pure _

/-- A row of statements adds names to no frame but the current one. -/
theorem stays_executeAll (allowance : Nat) (stmts : List (Stmt Reference)) :
    Stays true (executeAll distances allowance stmts) := by
  match allowance, stmts with
  | 0, _ => exact stays_throw _
  | allowance + 1, [] => exact stays_pure _
  | allowance + 1, first :: rest =>
      apply (stays_execute allowance first).bind
      intro completion
      cases completion with
      | normal => exact stays_executeAll allowance rest
      | returned value => exact stays_pure _

end

theorem stays_interpret (allowance : Nat) (program : List (Stmt Reference)) :
    Stays true (interpret distances allowance program) := by
  induction program with
  | nil => exact stays_pure ()
  | cons first rest ih => exact (stays_execute allowance first).bind fun _ => ih

/-! ## Methods and arguments -/

theorem ClassOf.mem_of_method? {ρ γ : Type} {cls : ClassOf ρ γ} {name : String}
    {method : FunctionDecl ρ} (found : cls.method? name = some method) : method ∈ cls.methods :=
  List.mem_reverse.1 (List.mem_of_find?_eq_some found)

/-- Where methods are mapped to methods with their names, the one with a name is
mapped too. -/
theorem ClassOf.method?_eq_map {ρ γ σ δ : Type} {cls : ClassOf ρ γ} {image : ClassOf σ δ}
    {f : FunctionDecl ρ → FunctionDecl σ} (methods : image.methods = cls.methods.map f)
    (names : ∀ method, (f method).name.lexeme = method.name.lexeme) (name : String) :
    image.method? name = (cls.method? name).map f := by
  rw [method?, method?, methods, ← List.map_reverse, List.find?_map]
  congr 2
  funext method
  rw [Function.comp, names]

/-- What a name is bound to is the argument of a parameter of that name. -/
theorem exists_of_argumentBindings {parameters : List Token} {arguments : List Value}
    {name : String} {value : Value}
    (bound : (argumentBindings parameters arguments)[name]? = some value) :
    ∃ parameter, (parameter, value) ∈ parameters.zip arguments ∧ parameter.lexeme = name := by
  have general (pairs : List (Token × Value)) (bindings : Bindings Value)
      (bound : (pairs.foldl (fun bindings pair =>
        bindings.insert pair.1.lexeme pair.2) bindings)[name]? = some value) :
      bindings[name]? = some value ∨
        ∃ parameter, (parameter, value) ∈ pairs ∧ parameter.lexeme = name := by
    induction pairs generalizing bindings with
    | nil => exact .inl bound
    | cons pair pairs ih =>
        rcases ih _ bound with before | ⟨parameter, member, same⟩
        · rw [Bindings.getElem?_insert] at before
          split at before
          · next here =>
              cases before
              exact .inr ⟨pair.1, List.mem_cons_self, here.symm⟩
          · exact .inl before
        · exact .inr ⟨parameter, List.mem_cons_of_mem _ member, same⟩
  rcases general _ _ bound with before | found
  · simp at before
  · exact found

theorem mem_of_argumentBindings {parameters : List Token} {arguments : List Value}
    {name : String} {value : Value}
    (bound : (argumentBindings parameters arguments)[name]? = some value) :
    value ∈ arguments := by
  obtain ⟨parameter, member, _⟩ := exists_of_argumentBindings bound
  exact (List.of_mem_zip member).2

theorem isSome_argumentBindings {parameters : List Token} {arguments : List Value}
    (arity : arguments.length = parameters.length) {name : String}
    (member : name ∈ parameters.map Token.lexeme) :
    ((argumentBindings parameters arguments)[name]?).isSome = true := by
  have general (pairs : List (Token × Value)) (bindings : Bindings Value)
      (held : (bindings[name]?).isSome = true ∨
        name ∈ (pairs.map Prod.fst).map Token.lexeme) :
      ((pairs.foldl (fun bindings pair =>
        bindings.insert pair.1.lexeme pair.2) bindings)[name]?).isSome = true := by
    induction pairs generalizing bindings with
    | nil => simpa using held
    | cons pair pairs ih =>
        apply ih
        rw [Bindings.getElem?_insert]
        by_cases here : name = pair.1.lexeme
        · rw [if_pos here]
          exact .inl rfl
        · rw [if_neg here]
          refine held.imp_right fun member => ?_
          exact (List.mem_cons.1 member).resolve_left here
  apply general
  rw [List.map_fst_zip (Nat.le_of_eq arity.symm)]
  exact .inr member

/-- Of different parameters each is bound to its own argument. -/
theorem getElem?_argumentBindings {parameters : List Token} {arguments : List Value}
    (arity : arguments.length = parameters.length)
    (different : (parameters.map Token.lexeme).Nodup) {parameter : Token} {argument : Value}
    (member : (parameter, argument) ∈ parameters.zip arguments) :
    (argumentBindings parameters arguments)[parameter.lexeme]? = some argument := by
  have listed : parameter.lexeme ∈ parameters.map Token.lexeme :=
    List.mem_map_of_mem (List.of_mem_zip member).1
  obtain ⟨value, found⟩ := Option.isSome_iff_exists.1 (isSome_argumentBindings arity listed)
  obtain ⟨other, among, same⟩ := exists_of_argumentBindings found
  have keys : ((parameters.zip arguments).map (Token.lexeme ∘ Prod.fst)).Nodup := by
    rwa [← List.map_map, List.map_fst_zip (Nat.le_of_eq arity.symm)]
  have equal := List.inj_on_of_nodup_map keys among member same
  rw [found]
  exact congrArg (some ∘ Prod.snd) equal

end Lox
