/-
# A run keeps frames and scopes in agreement

Whatever part of an accepted text is run, on a sound machine whose frames agree
with the scopes of that part, the machine is sound afterwards, however the run
ends; and behind a statement that is not left early, the frames agree with the
scopes behind it.  The induction is on the allowance, with one lemma for each
function of the evaluator.

The same then holds at every moment that a run reaches.
-/

import Lox.Proofs.Agreement
import Lox.Proofs.Moments

namespace Lox

open Execution Analysis

variable {texts : List Text} {α β : Type}

/-- A computation leaves a sound machine, on which its value has a property. -/
def Execution.Soundly (texts : List Text) (computation : Execution α) (machine : Machine)
    (holds : α → Machine → Prop) : Prop :=
  Ensures computation machine (fun value later => later.Sound texts ∧ holds value later)
    fun _ later => later.Sound texts

namespace Execution.Soundly

variable {computation : Execution α} {machine : Machine} {holds : α → Machine → Prop}

theorem pure {value : α} (sound : machine.Sound texts) (good : holds value machine) :
    Soundly texts (Pure.pure value) machine holds :=
  ⟨sound, good⟩

theorem fail {place : Token} {fault : RuntimeFault} (sound : machine.Sound texts) :
    Soundly texts (Execution.fail place fault) machine holds :=
  sound

theorem bind {next : α → Execution β} {property : β → Machine → Prop}
    (before : Soundly texts computation machine holds)
    (behind : ∀ value later, computation machine = .ok value later → later.Sound texts →
      holds value later → Soundly texts (next value) later property) :
    Soundly texts (computation >>= next) machine property :=
  ensures_bind
    (fun value later ran =>
      have ⟨sound, good⟩ := Ensures.finished before ran
      behind value later ran sound good)
    fun _ _ ran => Ensures.stopped before ran

theorem get_bind {next : Machine → Execution β} {property : β → Machine → Prop}
    (behind : Soundly texts (next machine) machine property) :
    Soundly texts (get >>= next) machine property :=
  behind

theorem imp {property : α → Machine → Prop} (soundly : Soundly texts computation machine holds)
    (weaker : ∀ value later, holds value later → property value later) :
    Soundly texts computation machine property :=
  Ensures.mono soundly (fun _ _ => And.imp_right (weaker _ _)) fun _ _ => id

theorem require {place : Token} {result : Except RuntimeFault α} (sound : machine.Sound texts)
    (good : ∀ value, result = .ok value → holds value machine) :
    Soundly texts (Execution.require place result) machine holds := by
  cases result with
  | ok value => exact ⟨sound, good value rfl⟩
  | error fault => exact sound

theorem checkArity (place : Token) (expected given : Nat) (sound : machine.Sound texts) :
    Soundly texts (Execution.checkArity place expected given) machine
      fun _ later => given = expected ∧ later = machine := by
  unfold Execution.checkArity
  split
  · next same => exact ⟨sound, same, rfl⟩
  · exact sound

end Execution.Soundly

/-- A prefix operator makes no function. -/
theorem sound_prefixValue {operator : Token} {operand value : Value} {frames : FrameStore Value}
    (made : prefixValue operator operand = .ok value) : Value.Sound texts frames value := by
  unfold prefixValue at made
  split at made
  · cases made
    trivial
  · split at made
    · cases made
      trivial
    · cases made

/-- An infix operator makes no function. -/
theorem sound_infixValue {operator : Token} {left right value : Value} {frames : FrameStore Value}
    (made : infixValue operator left right = .ok value) : Value.Sound texts frames value := by
  unfold infixValue at made
  split at made
  · cases made
    trivial
  · cases made
    trivial
  · unfold sumValue at made
    split at made <;> cases made <;> trivial
  · split at made
    · unfold arithmeticValue at made
      split at made <;> cases made <;> trivial
    · cases made
    · cases made

variable {machine : Machine}

theorem soundly_lookUp (distance : Option Nat) (name : Token) (sound : machine.Sound texts) :
    Soundly texts (lookUp distance name) machine fun value later =>
      Value.Sound texts later.frames value := by
  apply Soundly.get_bind
  dsimp only
  split
  · next value found =>
      refine Soundly.pure sound ?_
      cases distance with
      | none =>
          obtain ⟨binder, _, bound⟩ := Option.bind_eq_some_iff.1 found
          exact sound.bound binder name.lexeme value bound
      | some distance =>
          obtain ⟨frame, _, bound⟩ := Option.bind_eq_some_iff.1 found
          exact sound.bound frame name.lexeme value bound
  · exact Soundly.fail sound

theorem soundly_assign (distance : Option Nat) (name : Token) {value : Value}
    (sound : machine.Sound texts) (good : Value.Sound texts machine.frames value) :
    Soundly texts (assign distance name value) machine fun _ _ => True := by
  apply Soundly.get_bind
  dsimp only
  split
  · next binder found =>
      have bound : machine.frames.binds binder name.lexeme = true := by
        cases distance with
        | none => exact FrameStore.binds_of_binder? found
        | some distance => exact (Option.filter_eq_some_iff.1 found).2
      have kept := FrameStore.Keeps.assign machine.frames bound value
      exact ⟨sound.define (FrameStore.lt_nextId_of_binds bound) (good.mono kept), trivial⟩
  · exact Soundly.fail sound

/-- A declaration binds its name in the current frame to a value that is sound
once the frames agree with the scopes behind it. -/
theorem soundly_define {scopes : List Scope} {name : String} {value : Value}
    (sound : machine.Sound texts) (agrees : Agrees machine.frames machine.current scopes)
    (good : ∀ frames, FrameStore.Keeps (some machine.current) machine.frames frames →
      Agrees frames machine.current (defined name (declared name scopes)) →
      Value.Sound texts frames value) :
    Soundly texts (define name value) machine fun _ later =>
      Agrees later.frames later.current (defined name (declared name scopes)) := by
  have after := agrees.define name value
  have kept : FrameStore.Keeps (some machine.current) machine.frames _ :=
    .define machine.frames name value
  exact ⟨sound.define (agrees.lt_nextId sound.started) (good _ kept after), after⟩

theorem soundly_newClosure (declaration : FunctionDecl Reference) (frame : FrameId)
    (sound : machine.Sound texts) :
    Soundly texts (newClosure declaration frame) machine fun value later =>
      value = .function ⟨machine.nextIdentity, declaration, frame⟩ ∧
        later.frames = machine.frames ∧ later.current = machine.current :=
  ⟨sound.congr rfl rfl, rfl, rfl, rfl⟩

theorem soundly_newClass (name : String) (methods : List (FunctionDecl Reference))
    (sound : machine.Sound texts) :
    Soundly texts (newClass name methods) machine fun value later =>
      value = .classValue ⟨machine.nextIdentity, name, methods, machine.current⟩ ∧
        later.frames = machine.frames ∧ later.current = machine.current :=
  ⟨sound.congr rfl rfl, rfl, rfl, rfl⟩

theorem soundly_setField (object : Instance) (name : String) {value : Value}
    (sound : machine.Sound texts) (good : Value.Sound texts machine.frames value) :
    Soundly texts (setField object name value) machine fun _ later =>
      later.frames = machine.frames :=
  ⟨sound.setField object.identity name good, rfl⟩

theorem soundly_print (value : Value) (sound : machine.Sound texts) :
    Soundly texts (print value) machine fun _ _ => True := by
  apply Soundly.get_bind
  rcases machine.console.print value.display with ⟨fault, console⟩
  cases fault with
  | none => exact ⟨sound.congr rfl rfl, trivial⟩
  | some fault => exact sound.congr rfl rfl

/-- A method that is taken from an instance finds it as `this`. -/
theorem soundly_bindMethod {object : Instance} {method : FunctionDecl Reference}
    (sound : machine.Sound texts) (good : Class.Sound texts machine.frames object.ofClass)
    (member : method ∈ object.ofClass.methods) :
    Soundly texts (bindMethod object method) machine fun value later =>
      Value.Sound texts later.frames value := by
  obtain ⟨analysis, outer, visited, scopes, agrees⟩ := good
  obtain ⟨inner, found, same⟩ := visited.method member
  have here {name : String} {value : Value}
      (bound : (({} : Bindings Value).insert "this" (.instanceValue object))[name]? = some value) :
      value = .instanceValue object := by
    rw [Bindings.getElem?_insert] at bound
    split at bound
    · cases bound
      rfl
    · simp at bound
  have entered : Machine.Sound texts
      { machine with
        frames := machine.frames.push (some object.ofClass.home)
          (({} : Bindings Value).insert "this" (.instanceValue object)) } :=
    sound.entering _
      (fun name value bound => here bound ▸ ⟨analysis, outer, visited, scopes, agrees⟩)
      machine.current
  refine ⟨entered.congr rfl rfl, inner, .method, found, ?_⟩
  rw [same, scopes]
  refine agrees.push sound.started fun name held => ?_
  rw [receiverScope, Bindings.getElem?_insert] at held
  rw [Bindings.getElem?_insert]
  split at held
  · next this => rw [if_pos this]; rfl
  · simp at held

theorem soundly_property {object : Instance} (name : Token) (sound : machine.Sound texts)
    (good : Class.Sound texts machine.frames object.ofClass) :
    Soundly texts (property object name) machine fun value later =>
      Value.Sound texts later.frames value := by
  apply Soundly.get_bind
  split
  · next value found =>
      obtain ⟨bindings, kept, held⟩ := Option.bind_eq_some_iff.1 found
      exact ⟨sound, sound.fields _ bindings kept name.lexeme value held⟩
  · split
    · next method found => exact soundly_bindMethod sound good (ClassOf.mem_of_method? found)
    · exact Soundly.fail sound

/-- What runs in a new frame, in a scope that the new frame agrees with. -/
theorem soundly_inside {computation : Execution Completion} {enclosing : FrameId}
    {bindings : Bindings Value} {scope : Scope} {scopes : List Scope}
    (sound : machine.Sound texts) (agrees : Agrees machine.frames enclosing scopes)
    (bound : ∀ name : String, scope[name]? = some true → (bindings[name]?).isSome = true)
    (good : ∀ (name : String) value, bindings[name]? = some value →
      Value.Sound texts machine.frames value)
    (inside : (machine.entering enclosing bindings).Sound texts →
      Agrees (machine.entering enclosing bindings).frames machine.frames.nextId
        (scope :: scopes) →
      Soundly texts computation (machine.entering enclosing bindings) fun completion later =>
        ∀ value, completion = .returned value → Value.Sound texts later.frames value) :
    Soundly texts (newFrame enclosing bindings >>= fun frame => within frame computation) machine
      fun completion later =>
        ∀ value, completion = .returned value → Value.Sound texts later.frames value := by
  apply ensures_within
  exact (inside (sound.entering enclosing good _) (agrees.push sound.started bound)).mono
    (fun _ _ ran => ⟨ran.1.congr rfl rfl, ran.2⟩) fun _ _ sound => sound.congr rfl rfl

/-- The frames still agree with the scopes where they have been kept. -/
theorem Machine.Keeps.agrees {opens : Bool} {later : Machine} {scopes : List Scope}
    (keeps : machine.Keeps opens later)
    (agrees : Agrees machine.frames machine.current scopes) :
    Agrees later.frames later.current scopes := by
  rw [keeps.current]
  exact agrees.mono keeps.frames

/-- What keeps the frames also keeps them in agreement with the scopes. -/
theorem Execution.Soundly.staying {computation : Execution α} {holds : α → Machine → Prop}
    {opens : Bool} {scopes : List Scope} (soundly : Soundly texts computation machine holds)
    (stays : Stays opens computation) (agrees : Agrees machine.frames machine.current scopes) :
    Soundly texts computation machine fun value later =>
      holds value later ∧ Agrees later.frames later.current scopes := by
  have kept := stays machine
  rw [Soundly, Ensures] at soundly
  rw [Ensures] at kept
  rw [Soundly, Ensures]
  split at soundly
  · next found =>
      rw [found] at kept
      exact ⟨soundly.1, soundly.2, kept.agrees agrees⟩
  · exact soundly

/-- What is known when a statement is done: the frames agree with the scopes
behind it, or a sound value is on its way. -/
def Completion.Good (texts : List Text) (scopes : List Scope) (later : Machine) :
    Completion → Prop
  | .normal => Agrees later.frames later.current scopes
  | .returned value => Value.Sound texts later.frames value

variable {distances : Distances}

mutual

/-- Evaluating an expression on a sound machine gives a sound value. -/
theorem soundly_evaluate (n : Nat) {expr : Expr Reference} {analysis : Analysis} {m : Machine}
    (visited : Visited texts analysis (.expr expr)) (sound : m.Sound texts)
    (agrees : Agrees m.frames m.current analysis.scopes) :
    Soundly texts (evaluate distances n expr) m fun value later =>
      Value.Sound texts later.frames value := by
  match n, expr, visited with
  | 0, _, _ => exact sound
  | n + 1, .literal value, _ =>
      refine Soundly.pure sound ?_
      cases value <;> trivial
  | n + 1, .grouping inner, visited =>
      exact soundly_evaluate n (visited.call .inner) sound agrees
  | n + 1, .unary operator operand, visited =>
      exact (soundly_evaluate n (visited.call .operand) sound agrees).bind fun _ _ _ sound _ =>
        .require sound fun _ => sound_prefixValue
  | n + 1, .binary left operator right, visited =>
      refine (soundly_evaluate n (visited.call .left) sound agrees).bind
        fun _ m' ran sound _ => ?_
      have agrees' := ((stays_evaluate n left m).finished ran).agrees agrees
      rw [← scopes_expr analysis left] at agrees'
      exact (soundly_evaluate n (visited.call .right) sound agrees').bind fun _ _ _ sound _ =>
        .require sound fun _ => sound_infixValue
  | n + 1, .logical left operator right, visited =>
      refine (soundly_evaluate n (visited.call .first) sound agrees).bind
        fun _ m' ran sound good => ?_
      have agrees' := ((stays_evaluate n left m).finished ran).agrees agrees
      rw [← scopes_expr analysis left] at agrees'
      split
      · exact .pure sound good
      · exact soundly_evaluate n (visited.call .second) sound agrees'
  | n + 1, .variable reference name, _ => exact soundly_lookUp _ name sound
  | n + 1, .this reference keyword, _ => exact soundly_lookUp _ keyword sound
  | n + 1, .assign reference name value, visited =>
      refine (soundly_evaluate n (visited.call .value) sound agrees).bind
        fun value m' ran sound good => ?_
      refine (soundly_assign _ name sound good).bind fun _ m'' ran' sound _ => ?_
      exact .pure sound (good.mono ((stays_assign _ name value m').finished ran').frames)
  | n + 1, .call callee paren arguments, visited =>
      refine (soundly_evaluate n (visited.call .callee) sound agrees).bind
        fun value m' ran sound good => ?_
      have agrees' := ((stays_evaluate n callee m).finished ran).agrees agrees
      rw [← scopes_expr analysis callee] at agrees'
      refine (soundly_evaluateAll n (visited.call .arguments) sound agrees').bind
        fun values m'' ran' sound goods => ?_
      exact soundly_call n paren sound
        (good.mono ((stays_evaluateAll n arguments m').finished ran').frames) goods
  | n + 1, .get object name, visited =>
      refine (soundly_evaluate n (visited.call .object) sound agrees).bind
        fun value m' ran sound good => ?_
      split
      · exact soundly_property name sound good
      · exact .fail sound
  | n + 1, .set object name expr, visited =>
      have agrees₁ := agrees
      rw [← scopes_expr analysis expr] at agrees₁
      refine (soundly_evaluate n (visited.call .owner) sound agrees₁).bind
        fun value m' ran sound good => ?_
      split
      · have agrees' := ((stays_evaluate n object m).finished ran).agrees agrees
        refine (soundly_evaluate n (visited.call .stored) sound agrees').bind
          fun value m'' ran' sound good => ?_
        exact (soundly_setField _ name.lexeme sound good).bind fun _ _ _ sound same =>
          .pure sound (same ▸ good)
      · exact .fail sound

/-- Evaluating a row of expressions on a sound machine gives sound values. -/
theorem soundly_evaluateAll (n : Nat) {exprs : List (Expr Reference)} {analysis : Analysis}
    {m : Machine} (visited : Visited texts analysis (.exprs exprs)) (sound : m.Sound texts)
    (agrees : Agrees m.frames m.current analysis.scopes) :
    Soundly texts (evaluateAll distances n exprs) m fun values later =>
      ∀ value ∈ values, Value.Sound texts later.frames value := by
  match n, exprs, visited with
  | 0, _, _ => exact sound
  | n + 1, [], _ => exact .pure sound nofun
  | n + 1, first :: rest, visited =>
      refine (soundly_evaluate n (visited.call .firstExpr) sound agrees).bind
        fun value m' ran sound good => ?_
      have agrees' := ((stays_evaluate n first m).finished ran).agrees agrees
      rw [← scopes_expr analysis first] at agrees'
      refine (soundly_evaluateAll n (visited.call .otherExprs) sound agrees').bind
        fun values m'' ran' sound goods => ?_
      have good' := good.mono ((stays_evaluateAll n rest m').finished ran').frames
      exact .pure sound (List.forall_mem_cons.2 ⟨good', goods⟩)

/-- Calling a sound value on a sound machine gives a sound value. -/
theorem soundly_call (n : Nat) {callee : Value} {arguments : List Value} {m : Machine}
    (paren : Token) (sound : m.Sound texts) (good : Value.Sound texts m.frames callee)
    (goods : ∀ value ∈ arguments, Value.Sound texts m.frames value) :
    Soundly texts (call distances n callee paren arguments) m fun value later =>
      Value.Sound texts later.frames value := by
  match n, callee, good with
  | 0, _, _ => exact sound
  | n + 1, .function ⟨identity, .mk name names body, home⟩, good =>
      obtain ⟨analysis, kind, visited, agrees⟩ := good
      refine (Soundly.checkArity paren _ _ sound).bind fun _ m' _ sound checked => ?_
      obtain ⟨arity, rfl⟩ := checked
      have entered : (Analysis.enter { analysis with inFunction := some kind }).scopes =
          ({} : Scope) :: analysis.scopes := rfl
      obtain ⟨scope, inner, held⟩ := scopes_parameters entered names
      have ran := soundly_inside sound agrees
        (fun name found => isSome_argumentBindings arity (by
          rw [held name] at found
          split at found
          · assumption
          · simp at found))
        (fun name value found => goods value (mem_of_argumentBindings found))
        (fun sound agrees => soundly_executeAll n (visited.call .body) sound (inner ▸ agrees))
      refine ran.bind fun completion later _ sound good => ?_
      cases completion with
      | normal => exact .pure sound trivial
      | returned value => exact .pure sound (good value rfl)
  | n + 1, .native .clock, _ =>
      exact (Soundly.checkArity paren _ _ sound).bind fun _ _ _ sound _ =>
        ⟨sound.congr rfl rfl, trivial⟩
  | n + 1, .classValue cls, good =>
      refine (Soundly.checkArity paren _ _ sound).bind fun _ m' _ sound checked => ?_
      obtain ⟨_, rfl⟩ := checked
      exact ⟨sound.newInstance, good⟩
  | n + 1, .nil, _ => exact .fail sound
  | n + 1, .boolean _, _ => exact .fail sound
  | n + 1, .number _, _ => exact .fail sound
  | n + 1, .string _, _ => exact .fail sound
  | n + 1, .instanceValue _, _ => exact .fail sound

/-- Behind a statement that is run on a sound machine, frames agree with scopes
again. -/
theorem soundly_execute (n : Nat) {stmt : Stmt Reference} {analysis : Analysis} {m : Machine}
    (visited : Visited texts analysis (.stmt stmt)) (sound : m.Sound texts)
    (agrees : Agrees m.frames m.current analysis.scopes) :
    Soundly texts (execute distances n stmt) m fun completion later =>
      completion.Good texts (scopesBehind analysis.scopes stmt) later := by
  match n, stmt, visited with
  | 0, _, _ => exact sound
  | n + 1, .expression expr, visited =>
      refine (soundly_evaluate n (visited.call .expression) sound agrees).bind
        fun _ m' ran sound _ => ?_
      exact .pure sound (((stays_evaluate n expr m).finished ran).agrees agrees)
  | n + 1, .print expr, visited =>
      refine (soundly_evaluate n (visited.call .print) sound agrees).bind
        fun value m' ran sound _ => ?_
      refine (soundly_print value sound).bind fun _ m'' ran' sound _ => ?_
      have agrees' := ((stays_evaluate n expr m).finished ran).agrees agrees
      have kept : m'.Keeps false m'' := (stays_print value m').finished ran'
      exact .pure sound (kept.agrees agrees')
  | n + 1, .varDecl name none, _ =>
      have nil (frames : FrameStore Value) : Value.Sound texts frames .nil := trivial
      exact (soundly_define sound agrees fun frames _ _ => nil frames).bind
        fun _ _ _ sound agrees => .pure sound agrees
  | n + 1, .varDecl name (some initializer), visited =>
      have inside := agrees.declare name.lexeme
      rw [← scopes_declare] at inside
      refine (soundly_evaluate n (visited.call .initializer) sound inside).bind
        fun value m' ran sound good => ?_
      have agrees' := ((stays_evaluate n initializer m).finished ran).agrees agrees
      exact (soundly_define sound agrees' fun _ kept _ => good.mono kept).bind
        fun _ _ _ sound agrees => .pure sound agrees
  | n + 1, .block body, visited =>
      apply Soundly.get_bind
      have unbound (name : String) (held : ({} : Scope)[name]? = some true) :
          ((({} : Bindings Value))[name]?).isSome = true := by simp at held
      have ran := soundly_inside sound agrees unbound (fun name value bound => by simp at bound)
        (fun sound agrees => soundly_executeAll n (visited.call .block) sound agrees)
      refine (ran.staying (stays_inside _ _ (stays_executeAll n body)) agrees).imp
        fun completion later good => ?_
      cases completion with
      | normal => exact good.2
      | returned value => exact good.1 value rfl
  | n + 1, .conditional condition onTrue none, visited =>
      refine (soundly_evaluate n (visited.call .condition) sound agrees).bind
        fun value m' ran sound _ => ?_
      have agrees' := ((stays_evaluate n condition m).finished ran).agrees agrees
      have shaped := visited.shaped
      split
      · have inside := agrees'
        rw [← scopes_expr analysis condition] at inside
        have ran := soundly_execute n (visited.call .onTrue) sound inside
        rwa [scopes_expr, scopesBehind_of_not_declaration _ shaped.2.2] at ran
      · exact .pure sound agrees'
  | n + 1, .conditional condition onTrue (some onFalse), visited =>
      refine (soundly_evaluate n (visited.call .condition) sound agrees).bind
        fun value m' ran sound _ => ?_
      have agrees' := ((stays_evaluate n condition m).finished ran).agrees agrees
      have inside := agrees'
      rw [← scopes_expr analysis condition] at inside
      obtain ⟨_, ⟨shaped, onTrueIsNone⟩, _, onFalseIsNone⟩ := visited.shaped
      split
      · have ran := soundly_execute n (visited.call .onTrue) sound inside
        rwa [scopes_expr, scopesBehind_of_not_declaration _ onTrueIsNone] at ran
      · have same := scopes_stmt (analysis.expr condition) shaped
        rw [scopesBehind_of_not_declaration _ onTrueIsNone] at same
        have ran := soundly_execute n (visited.call .onFalse) sound (same ▸ inside)
        rwa [same, scopes_expr, scopesBehind_of_not_declaration _ onFalseIsNone] at ran
  | n + 1, .whileLoop condition body, visited =>
      exact soundly_loop n visited sound agrees
  | n + 1, .funDecl declaration, visited =>
      apply Soundly.get_bind
      refine (soundly_newClosure declaration m.current sound).bind fun _ m' _ sound made => ?_
      obtain ⟨rfl, frames, current⟩ := made
      rw [← frames, ← current] at agrees
      refine (soundly_define sound agrees fun frames _ after => ?_).bind
        fun _ _ _ sound agrees => .pure sound agrees
      rw [← scopes_declare, ← scopes_define, current] at after
      exact ⟨_, .function, visited.call .function, after⟩
  | n + 1, .returning _ none, _ => exact .pure sound trivial
  | n + 1, .returning keyword (some expr), visited =>
      have agrees' := agrees
      rw [← scopes_returning analysis keyword] at agrees'
      exact (soundly_evaluate n (visited.call .returned) sound agrees').bind
        fun value m' ran sound good => .pure sound good
  | n + 1, .classDecl name methods, visited =>
      refine (soundly_newClass name.lexeme methods sound).bind fun _ m' _ sound made => ?_
      obtain ⟨rfl, frames, current⟩ := made
      rw [← frames, ← current] at agrees
      refine (soundly_define sound agrees fun frames _ after => ?_).bind
        fun _ _ _ sound agrees => .pure sound agrees
      rw [current] at after
      have same : (analysis.enterClass name).scopes =
          receiverScope :: defined name.lexeme (declared name.lexeme analysis.scopes) := by
        rw [← scopes_declare { analysis with inClass := true }, ← scopes_define]
        rfl
      exact ⟨_, _, visited.call .methods, same, after⟩

/-- A loop that is run on a sound machine leaves the frames in agreement. -/
theorem soundly_loop (n : Nat) {condition : Expr Reference} {body : Stmt Reference}
    {analysis : Analysis} {m : Machine}
    (visited : Visited texts analysis (.stmt (.whileLoop condition body))) (sound : m.Sound texts)
    (agrees : Agrees m.frames m.current analysis.scopes) :
    Soundly texts (loop distances n condition body) m fun completion later =>
      completion.Good texts analysis.scopes later := by
  match n with
  | 0 => exact sound
  | n + 1 =>
      refine (soundly_evaluate n (visited.call .guard) sound agrees).bind
        fun value m' ran sound _ => ?_
      have agrees' := ((stays_evaluate n condition m).finished ran).agrees agrees
      split
      · have inside := agrees'
        rw [← scopes_expr analysis condition] at inside
        refine (soundly_execute n (visited.call .round) sound inside).bind
          fun completion m'' ran' sound good => ?_
        have shaped := visited.shaped
        rw [scopes_expr, scopesBehind_of_not_declaration _ shaped.2.2] at good
        cases completion with
        | normal => exact soundly_loop n visited sound good
        | returned value => exact .pure sound good
      · exact .pure sound agrees'

/-- Running a row of statements on a sound machine leaves it sound. -/
theorem soundly_executeAll (n : Nat) {stmts : List (Stmt Reference)} {analysis : Analysis}
    {m : Machine} (visited : Visited texts analysis (.stmts stmts)) (sound : m.Sound texts)
    (agrees : Agrees m.frames m.current analysis.scopes) :
    Soundly texts (executeAll distances n stmts) m fun completion later =>
      ∀ value, completion = .returned value → Value.Sound texts later.frames value := by
  match n, stmts, visited with
  | 0, _, _ => exact sound
  | n + 1, [], _ => exact .pure sound nofun
  | n + 1, first :: rest, visited =>
      refine (soundly_execute n (visited.call .firstStmt) sound agrees).bind
        fun completion m' ran sound good => ?_
      have shaped := visited.shaped
      cases completion with
      | normal =>
          rw [← scopes_stmt analysis shaped.1] at good
          exact soundly_executeAll n (visited.call .otherStmts) sound good
      | returned value =>
          refine .pure sound ?_
          rintro _ ⟨⟩
          exact good

end

end Lox
