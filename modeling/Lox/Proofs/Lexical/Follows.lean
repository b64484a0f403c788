/-
# One computation follows another

A computation on the memory follows one on the machine if both end alike, with
values that are related, on a memory that mirrors the machine again
(`Lexical.Follows`).  The cells that were made in between are cells of frames
that were made in between, but for those of the current frame if names are
declared in it (`Lexical.Extends`).

This module has the rules for computations one behind the other, and shows that
the steps of the one evaluator follow those of the other.
-/

import Lox.Proofs.Lexical.Mirror

namespace Lox

open Execution Analysis

namespace Lexical

variable {texts : List Text} {opens : Bool} {layout later last : Layout}
  {machine machine' machine'' : Machine} {α β γ δ : Type}

/-- Frames have been kept, and cells have been made only for frames that are new
and, if it is open, for the current one. -/
structure Extends (opens : Bool) (layout : Layout) (machine : Machine) (later : Layout)
    (machine' : Machine) : Prop where
  keeps : machine.Keeps opens machine'
  grown : layout <+: later
  own : ∀ id name, (id, name) ∈ later → id < machine.frames.nextId →
    (opens = true → id ≠ machine.current) → (id, name) ∈ layout

namespace Extends

theorem refl (layout : Layout) (machine : Machine) :
    Extends opens layout machine layout machine :=
  ⟨.refl machine, List.prefix_refl layout, fun _ _ member _ _ => member⟩

theorem trans (before : Extends opens layout machine later machine')
    (behind : Extends opens later machine' last machine'') :
    Extends opens layout machine last machine'' := by
  refine ⟨before.keeps.trans behind.keeps, before.grown.trans behind.grown,
    fun id name member inside other => ?_⟩
  apply before.own id name _ inside other
  apply behind.own id name member (Nat.lt_of_lt_of_le inside before.keeps.frames.size)
  rw [before.keeps.current]
  exact other

/-- What makes no cell for any old frame makes none but for an open one. -/
theorem opening (extends' : Extends false layout machine later machine') :
    Extends opens layout machine later machine' :=
  ⟨extends'.keeps.opening, extends'.grown, fun id name member inside _ =>
    extends'.own id name member inside nofun⟩

/-- Nothing but the frames has changed, or not even these. -/
theorem of_keeps (keeps : machine.Keeps opens machine') :
    Extends opens layout machine layout machine' :=
  ⟨keeps, List.prefix_refl layout, fun _ _ member _ _ => member⟩

theorem mirrors {value : Lox.Value} {image : Value}
    (extends' : Extends opens layout machine later machine')
    (mirrors : Value.Mirrors texts layout machine.frames value image) :
    Value.Mirrors texts later machine'.frames value image :=
  mirrors.mono (List.Subset.refl _) extends'.grown extends'.keeps.frames

theorem fits {scopes : List Scope} {env : Env}
    (extends' : Extends opens layout machine later machine')
    (fits : Matches layout machine.frames machine.current scopes env) :
    Matches later machine'.frames machine'.current scopes env := by
  rw [extends'.keeps.current]
  exact fits.mono extends'.grown extends'.keeps.frames

end Extends

/-- Both computations end alike: with related values, or with the same
interrupt; and the memory mirrors the machine again. -/
def Follows (texts : List Text) (opens : Bool) (layout : Layout) (computation : Execution α)
    (machine : Machine) (image : Evaluation β) (memory : Memory)
    (related : Layout → FrameStore Lox.Value → α → β → Prop) : Prop :=
  match computation machine, image memory with
  | .ok value machine', .ok value' memory' => ∃ later,
      Extends opens layout machine later machine' ∧ machine'.Mirrors texts later memory' ∧
        related later machine'.frames value value'
  | .error interrupt machine', .error interrupt' memory' =>
      interrupt' = interrupt ∧ ∃ later, machine'.Mirrors texts later memory'
  | _, _ => False

namespace Follows

variable {computation : Execution α} {image : Evaluation β} {memory memory' : Memory}
  {related : Layout → FrameStore Lox.Value → α → β → Prop}

theorem pure {value : α} {value' : β} (mirrors : machine.Mirrors texts layout memory)
    (holds : related layout machine.frames value value') :
    Follows texts opens layout (Pure.pure value) machine (Pure.pure value') memory related :=
  ⟨layout, .refl layout machine, mirrors, holds⟩

theorem throw {interrupt : Interrupt} (mirrors : machine.Mirrors texts layout memory) :
    Follows texts opens layout (MonadExcept.throw interrupt) machine
      (MonadExcept.throw interrupt) memory related :=
  ⟨rfl, layout, mirrors⟩

theorem fail (place : Token) (fault : RuntimeFault)
    (mirrors : machine.Mirrors texts layout memory) :
    Follows texts opens layout (Execution.fail place fault) machine (Lexical.fail place fault)
      memory related :=
  ⟨rfl, layout, mirrors⟩

theorem imp {related' : Layout → FrameStore Lox.Value → α → β → Prop}
    (follows : Follows texts opens layout computation machine image memory related)
    (weaker : ∀ later frames value value', related later frames value value' →
      related' later frames value value') :
    Follows texts opens layout computation machine image memory related' := by
  rw [Follows] at follows ⊢
  split at follows
  · obtain ⟨later, extends', mirrors, holds⟩ := follows
    exact ⟨later, extends', mirrors, weaker _ _ _ _ holds⟩
  · exact follows
  · exact follows

theorem opening (follows : Follows texts false layout computation machine image memory related) :
    Follows texts opens layout computation machine image memory related := by
  rw [Follows] at follows ⊢
  split at follows
  · obtain ⟨later, extends', others⟩ := follows
    exact ⟨later, extends'.opening, others⟩
  · exact follows
  · exact follows

/-- Only the outcomes matter. -/
theorem congr {computation' : Execution α} {image' : Evaluation β}
    (same : computation machine = computation' machine) (same' : image memory = image' memory)
    (follows : Follows texts opens layout computation' machine image' memory related) :
    Follows texts opens layout computation machine image memory related := by
  rw [Follows] at follows ⊢
  rw [same, same']
  exact follows

variable {next : α → Execution γ} {next' : β → Evaluation δ}
  {related' : Layout → FrameStore Lox.Value → γ → δ → Prop}

/-- What stands behind computations that follow one another starts on a memory
that mirrors the machine. -/
theorem bindBy {first : Bool}
    (widen : ∀ {layout machine later machine'}, Extends first layout machine later machine' →
      Extends opens layout machine later machine')
    (before : Follows texts first layout computation machine image memory related)
    (behind : ∀ value value' machine' memory' later,
      Extends first layout machine later machine' → machine'.Mirrors texts later memory' →
        related later machine'.frames value value' →
          Follows texts opens later (next value) machine' (next' value') memory' related') :
    Follows texts opens layout (computation >>= next) machine (image >>= next') memory
      related' := by
  show match EStateM.bind computation next machine, EStateM.bind image next' memory with
    | .ok value machine', .ok value' memory' => _
    | .error interrupt machine', .error interrupt' memory' => _
    | _, _ => False
  rw [Follows] at before
  rw [EStateM.bind, EStateM.bind]
  split at before
  · next ran ran' =>
      obtain ⟨later, extends', mirrors, holds⟩ := before
      have followed := behind _ _ _ _ later extends' mirrors holds
      rw [ran, ran']
      rw [Follows] at followed
      dsimp only
      split at followed
      · obtain ⟨last, further, others⟩ := followed
        exact ⟨last, (widen extends').trans further, others⟩
      · exact followed
      · exact followed.elim
  · next ran ran' =>
      rw [ran, ran']
      exact before
  · exact before.elim

theorem bind (before : Follows texts opens layout computation machine image memory related)
    (behind : ∀ value value' machine' memory' later,
      Extends opens layout machine later machine' → machine'.Mirrors texts later memory' →
        related later machine'.frames value value' →
          Follows texts opens later (next value) machine' (next' value') memory' related') :
    Follows texts opens layout (computation >>= next) machine (image >>= next') memory related' :=
  bindBy (fun extends' => extends') before behind

theorem get_bind {next : Machine → Execution γ} {next' : Memory → Evaluation δ}
    {related' : Layout → FrameStore Lox.Value → γ → δ → Prop}
    (follows : Follows texts opens layout (next machine) machine (next' memory) memory related') :
    Follows texts opens layout (get >>= next) machine (get >>= next') memory related' :=
  follows

/-- A step in which only the machine is looked at. -/
theorem get_left {next : Machine → Execution γ} {related' : Layout → FrameStore Lox.Value →
      γ → β → Prop}
    (follows : Follows texts opens layout (next machine) machine image memory related') :
    Follows texts opens layout (get >>= next) machine image memory related' :=
  follows

/-- Behind an expression, names may be declared in the current frame. -/
theorem behind (before : Follows texts false layout computation machine image memory related)
    (behind : ∀ value value' machine' memory' later,
      Extends false layout machine later machine' → machine'.Mirrors texts later memory' →
        related later machine'.frames value value' →
          Follows texts opens later (next value) machine' (next' value') memory' related') :
    Follows texts opens layout (computation >>= next) machine (image >>= next') memory related' :=
  bindBy Extends.opening before behind

/-- A step that only the memory takes. -/
theorem after {value' : β} {next' : β → Evaluation δ}
    {related' : Layout → FrameStore Lox.Value → α → δ → Prop}
    (ran : image memory = .ok value' memory')
    (extends' : Extends opens layout machine later machine)
    (follows : Follows texts opens later computation machine (next' value') memory' related') :
    Follows texts opens layout computation machine (image >>= next') memory related' := by
  show match computation machine, EStateM.bind image next' memory with
    | .ok value machine', .ok value' memory' => _
    | .error interrupt machine', .error interrupt' memory' => _
    | _, _ => False
  rw [EStateM.bind, ran]
  rw [Follows] at follows
  dsimp only
  split at follows
  · obtain ⟨last, further, others⟩ := follows
    exact ⟨last, extends'.trans further, others⟩
  · exact follows
  · exact follows.elim

theorem require {result : Except RuntimeFault Lox.Value} {result' : Except RuntimeFault Value}
    (place : Token) (mirrors : machine.Mirrors texts layout memory)
    (results : Result.Mirrors texts layout machine.frames result result') :
    Follows texts opens layout (Execution.require place result) machine
      (Lexical.require place result') memory (Value.Mirrors texts) := by
  cases results with
  | ok holds => exact .pure mirrors holds
  | error fault => exact .fail place fault mirrors

theorem checkArity (place : Token) (expected : Nat) {given given' : Nat} (same : given = given')
    (mirrors : machine.Mirrors texts layout memory) :
    Follows texts opens layout (Execution.checkArity place expected given) machine
      (Lexical.checkArity place expected given') memory fun _ _ _ _ => given' = expected := by
  rw [same]
  unfold Execution.checkArity Lexical.checkArity
  split
  · next arity => exact .pure mirrors arity
  · exact .fail place _ mirrors

end Follows

/-! ## Names -/

section Names

variable {memory : Memory} {scopes : List Scope} {env : Env} {analysis : Analysis}

/-- A name is found in the frame at its distance, or it is a global one; its
entry, or the global name, has a value that mirrors that. -/
theorem rel_find? (mirrors : machine.Mirrors texts layout memory)
    (fits : Matches layout machine.frames machine.current analysis.scopes env) (name : String) :
    Option.Rel (Value.Mirrors texts layout machine.frames)
      (match analysis.distance? name with
        | some distance => machine.frames.getAt? machine.current distance name
        | none => machine.frames.get? Machine.globals name)
      (memory.find? env name) := by
  have entry := fits.lookup name
  rw [distance?, Memory.find?]
  cases near : analysis.scopes.findIdx? fun scope => scope.contains name with
  | some distance =>
      rw [near] at entry
      obtain ⟨frame, cell, reached, listed, found⟩ := entry
      rw [listed]
      dsimp only
      rw [FrameStore.getAt?, reached]
      exact mirrors.cells cell frame name found
  | none =>
      rw [near] at entry
      rw [entry]
      dsimp only
      rw [Machine.globals, FrameStore.get?_zero]
      exact mirrors.globals name

/-- What was found under a name, or the fault that nothing was. -/
theorem follows_found (name : Token) {found : Option Lox.Value} {found' : Option Value}
    (mirrors : machine.Mirrors texts layout memory)
    (rel : Option.Rel (Value.Mirrors texts layout machine.frames) found found') :
    Follows texts opens layout
      (match found with
        | some value => Pure.pure value
        | none => Execution.fail name (.undefinedVariable name.lexeme)) machine
      (match found' with
        | some value => Pure.pure value
        | none => fail name (.undefinedVariable name.lexeme)) memory (Value.Mirrors texts) := by
  cases rel with
  | some holds => exact .pure mirrors holds
  | none => exact .fail name _ mirrors

/-- Looking a name up in the names in force follows looking it up at its
distance. -/
theorem follows_lookUp (name : Token) (mirrors : machine.Mirrors texts layout memory)
    (fits : Matches layout machine.frames machine.current analysis.scopes env) :
    Follows texts opens layout (Execution.lookUp (analysis.distance? name.lexeme) name) machine
      (lookUp env name) memory (Value.Mirrors texts) :=
  .congr rfl rfl (follows_found name mirrors (rel_find? mirrors fits name.lexeme))

/-- A step of both that keeps the frames. -/
theorem follows_modify {change : Machine → Machine} {change' : Memory → Memory}
    (keeps : machine.Keeps opens (change machine))
    (mirrors : (change machine).Mirrors texts layout (change' memory)) :
    Follows texts opens layout (modify change) machine (modify change') memory
      fun _ _ _ _ => True :=
  ⟨layout, .of_keeps keeps, mirrors, trivial⟩

/-- What an assignment does with the frame in which it is to be made. -/
def assignIn (binder : Option FrameId) (name : Token) (value : Lox.Value) : Execution Unit :=
  match binder with
  | some binder => modify fun machine =>
      { machine with frames := machine.frames.define binder name.lexeme value }
  | none => Execution.fail name (.undefinedVariable name.lexeme)

/-- Assigning a name of those in force follows assigning it in the frame that
may bind it. -/
theorem follows_assignIn {id : FrameId} (name : Token) (value : Lox.Value) (image : Value)
    (mirrors : machine.Mirrors texts layout memory)
    (rel : Option.Rel (Value.Mirrors texts layout machine.frames)
      (machine.frames.bound? id name.lexeme) (memory.find? env name.lexeme))
    (written : ({ machine with
      frames := machine.frames.define id name.lexeme value } : Machine).Mirrors texts layout
        (memory.write env name.lexeme image)) :
    Follows texts opens layout
      (assignIn (if machine.frames.binds id name.lexeme then some id else none) name value)
      machine (assign env name image) memory fun _ _ _ _ => True := by
  suffices follows : Follows texts opens layout
      (assignIn (if machine.frames.binds id name.lexeme then some id else none) name value) machine
      (if (memory.find? env name.lexeme).isSome then modify (·.write env name.lexeme image)
        else fail name (.undefinedVariable name.lexeme)) memory fun _ _ _ _ => True from
    .congr rfl rfl follows
  rw [FrameStore.binds]
  cases bound : machine.frames.bound? id name.lexeme with
  | none =>
      rw [bound] at rel
      generalize memory.find? env name.lexeme = found at rel
      cases rel
      exact .fail name _ mirrors
  | some old =>
      have binds : machine.frames.binds id name.lexeme = true :=
        FrameStore.binds_iff.2 ⟨old, bound⟩
      rw [bound] at rel
      generalize memory.find? env name.lexeme = found at rel
      cases rel
      have keeps : machine.Keeps false
          { machine with frames := machine.frames.define id name.lexeme value } :=
        ⟨rfl, .assign machine.frames binds value⟩
      exact (follows_modify keeps written).opening

/-- Assigning a name of those in force follows assigning it at its distance. -/
theorem follows_assign (name : Token) {value : Lox.Value} {image : Value}
    (mirrors : machine.Mirrors texts layout memory)
    (fits : Matches layout machine.frames machine.current analysis.scopes env)
    (holds : Value.Mirrors texts layout machine.frames value image) :
    Follows texts opens layout (Execution.assign (analysis.distance? name.lexeme) name value)
      machine (assign env name image) memory fun _ _ _ _ => True := by
  have entry := fits.lookup name.lexeme
  have kept (id : FrameId) : Value.Mirrors texts layout
      (machine.frames.define id name.lexeme value) value image :=
    holds.mono (List.Subset.refl _) (List.prefix_refl _) (.define machine.frames name.lexeme value)
  cases near : analysis.distance? name.lexeme with
  | some distance =>
      rw [distance?] at near
      rw [near] at entry
      obtain ⟨frame, cell, reached, listed, found⟩ := entry
      have rel := mirrors.cells cell frame name.lexeme found
      have written := mirrors.write found (kept frame)
      have find : memory.find? env name.lexeme = memory.cell? cell := by
        rw [Memory.find?, listed]
      have write : memory.write env name.lexeme image =
          { memory with cells := memory.cells.setIfInBounds cell (some image) } := by
        rw [Memory.write, listed]
      have binder : machine.frames.binderAt? machine.current distance name.lexeme =
          if machine.frames.binds frame name.lexeme then some frame else none := by
        rw [FrameStore.binderAt?, reached, Option.filter_some]
      rw [← find] at rel
      rw [← write] at written
      have follows : Follows texts opens layout _ machine _ memory _ :=
        follows_assignIn name value image mirrors rel written
      rw [← binder] at follows
      exact .congr rfl rfl follows
  | none =>
      rw [distance?] at near
      rw [near] at entry
      have rel := mirrors.globals name.lexeme
      have written := mirrors.writeGlobal name.lexeme (kept Machine.globals)
      have find : memory.find? env name.lexeme = memory.globals[name.lexeme]? := by
        rw [Memory.find?, entry]
      have write : memory.write env name.lexeme image =
          { memory with globals := memory.globals.insert name.lexeme image } := by
        rw [Memory.write, entry]
      rw [← find] at rel
      rw [← write] at written
      have follows : Follows texts opens layout _ machine _ memory _ :=
        follows_assignIn name value image mirrors rel written
      rw [Machine.globals, ← machine.frames.binder?_zero name.lexeme] at follows
      exact .congr rfl rfl follows

end Names

/-! ## Values and instances -/

section Values

variable {memory : Memory} {value : Lox.Value} {image : Value}

theorem follows_print (mirrors : machine.Mirrors texts layout memory)
    (holds : Value.Mirrors texts layout machine.frames value image) :
    Follows texts opens layout (Execution.print value) machine (print image) memory
      fun _ _ _ _ => True := by
  have same : memory.console.print image.display = machine.console.print value.display := by
    rw [mirrors.console, holds.display]
  have kept (console : Console) : ({ machine with console := console }).Mirrors texts layout
      { memory with console := console } := { mirrors with console := rfl }
  apply Follows.get_bind
  rw [same]
  rcases machine.console.print value.display with ⟨fault, console⟩
  cases fault with
  | none => exact ⟨layout, .of_keeps ⟨rfl, .refl _⟩, kept console, trivial⟩
  | some fault => exact ⟨rfl, layout, kept console⟩

theorem follows_readClock (mirrors : machine.Mirrors texts layout memory) :
    Follows texts opens layout Execution.readClock machine readClock memory
      (Value.Mirrors texts) := by
  refine ⟨layout, .of_keeps ⟨rfl, .refl _⟩, { mirrors with clock := ?_ }, ?_⟩
  · exact congrArg Clock.afterReading mirrors.clock
  · rw [mirrors.clock]
    exact .number _

/-- A function whose home is laid out along the frames mirrors the other one. -/
theorem follows_newClosure {home : FrameId} {env : Env} (declaration : FunctionDecl Reference)
    (mirrors : machine.Mirrors texts layout memory) :
    Follows texts opens layout (Execution.newClosure declaration home) machine
      (newClosure (Stmt.functionUnlabelled declaration) env) memory
      fun later _ value image => ∀ frames analysis kind,
        Visited texts analysis (.function kind declaration) →
          Matches later frames home analysis.scopes env →
            Value.Mirrors texts later frames value image := by
  have made : ({ machine with nextIdentity := machine.nextIdentity + 1 } : Machine).Mirrors
      texts layout { memory with nextIdentity := memory.nextIdentity + 1 } :=
    { mirrors with identity := congrArg (· + 1) mirrors.identity }
  exact ⟨layout, .of_keeps ⟨rfl, .refl _⟩, made, fun frames analysis kind visited fits =>
    .function ⟨mirrors.identity, rfl, analysis, kind, visited, fits⟩⟩

/-- A class whose home is laid out along the frames mirrors the other one. -/
theorem follows_newClass {env : Env} (name : String) (methods : List (FunctionDecl Reference))
    (mirrors : machine.Mirrors texts layout memory) :
    Follows texts opens layout (Execution.newClass name methods) machine
      (newClass name (Stmt.methodsUnlabelled methods) env) memory
      fun later _ value image => ∀ frames analysis outer,
        Visited texts analysis (.methods methods) → analysis.scopes = receiverScope :: outer →
          Matches later frames machine.current outer env →
            Value.Mirrors texts later frames value image := by
  have made : ({ machine with nextIdentity := machine.nextIdentity + 1 } : Machine).Mirrors
      texts layout { memory with nextIdentity := memory.nextIdentity + 1 } :=
    { mirrors with identity := congrArg (· + 1) mirrors.identity }
  exact ⟨layout, .of_keeps ⟨rfl, .refl _⟩, made, fun frames analysis outer visited same fits =>
    .classValue ⟨mirrors.identity, rfl, rfl, analysis, outer, visited, same, fits⟩⟩

theorem follows_newInstance {cls : Lox.Class} {cls' : Class}
    (mirrors : machine.Mirrors texts layout memory)
    (holds : Class.Mirrors texts layout machine.frames cls cls') :
    Follows texts opens layout (Execution.newInstance cls) machine (newInstance cls') memory
      (Value.Mirrors texts) := by
  refine ⟨layout, .of_keeps ⟨rfl, .refl _⟩, mirrors.newInstance, ?_⟩
  rw [mirrors.instances]
  exact .instanceValue _ holds

theorem follows_setField {cls : Lox.Class} {cls' : Class} (identity : Nat) (name : String)
    (mirrors : machine.Mirrors texts layout memory)
    (holds : Value.Mirrors texts layout machine.frames value image) :
    Follows texts opens layout (Execution.setField ⟨identity, cls⟩ name value) machine
      (setField ⟨identity, cls'⟩ name image) memory fun _ _ _ _ => True :=
  ⟨layout, .of_keeps ⟨rfl, .refl _⟩, mirrors.setField identity name holds, trivial⟩

/-- What runs in a new frame makes cells for no frame that was there. -/
theorem follows_inside {computation : Execution α} {image : Evaluation β} {enclosing : FrameId}
    {bindings : Bindings Lox.Value} {related : Layout → FrameStore Lox.Value → α → β → Prop}
    (grown : layout <+: later)
    (own : ∀ id name, (id, name) ∈ later → id < machine.frames.nextId → (id, name) ∈ layout)
    (inside : Follows texts true later computation (machine.entering enclosing bindings) image
      memory related) :
    Follows texts false layout
      (newFrame enclosing bindings >>= fun frame => within frame computation) machine image
      memory related := by
  have pushed := FrameStore.Keeps.push machine.frames (some enclosing) bindings
  rw [Follows] at inside ⊢
  show match within machine.frames.nextId computation
      { machine with frames := machine.frames.push (some enclosing) bindings }, image memory with
    | .ok _ _, .ok _ _ => _
    | .error _ _, .error _ _ => _
    | _, _ => False
  simp only [within]
  split at inside
  · next ran ran' =>
      obtain ⟨last, extends', mirrors, holds⟩ := inside
      rw [Machine.entering] at ran
      rw [ran, ran']
      refine ⟨last, ⟨⟨rfl, extends'.keeps.frames.within⟩, grown.trans extends'.grown,
        fun id name member before _ => own id name (extends'.own id name member ?_ ?_) before⟩,
        { mirrors with }, holds⟩
      · exact Nat.lt_of_lt_of_le before pushed.size
      · exact fun _ => Nat.ne_of_lt before
  · next ran ran' =>
      obtain ⟨same, last, mirrors⟩ := inside
      rw [Machine.entering] at ran
      rw [ran, ran']
      exact ⟨same, last, { mirrors with }⟩
  · exact inside.elim

/-- A method is taken from an instance. -/
theorem follows_bindMethod {cls : Lox.Class} {cls' : Class} (identity : Nat)
    {method : FunctionDecl Reference} (mirrors : machine.Mirrors texts layout memory)
    (holds : Class.Mirrors texts layout machine.frames cls cls') (member : method ∈ cls.methods) :
    Follows texts false layout (Execution.bindMethod ⟨identity, cls⟩ method) machine
      (bindMethod ⟨identity, cls'⟩ (Stmt.functionUnlabelled method)) memory
      (Value.Mirrors texts) := by
  let receiver := ({} : Bindings Lox.Value).insert "this" (.instanceValue ⟨identity, cls⟩)
  let later := layout ++ [(machine.frames.nextId, "this")]
  have grown : layout <+: later := List.prefix_append _ _
  have pushed := FrameStore.Keeps.push machine.frames (some cls.home) receiver
  have new : (machine.frames.nextId, "this") ∉ layout := fun among =>
    Nat.lt_irrefl _ (mirrors.inside _ _ among).1
  have entered := mirrors.push cls.home receiver machine.current
  have bound : Option.Rel
      (Value.Mirrors texts layout (machine.frames.push (some cls.home) receiver))
      ((machine.frames.push (some cls.home) receiver).bound? machine.frames.nextId "this")
      (some (.instanceValue ⟨identity, cls'⟩)) := by
    rw [FrameStore.bound?_push, if_pos rfl, Bindings.getElem?_insert, if_pos rfl]
    exact .some (.instanceValue identity
      (holds.mono (List.Subset.refl _) (List.prefix_refl _) pushed))
  have inside : machine.frames.nextId <
      (machine.frames.push (some cls.home) receiver).nextId ∧
        machine.frames.nextId ≠ Machine.globals := by
    rw [FrameStore.nextId_push]
    exact ⟨Nat.lt_succ_self _, Nat.ne_of_gt mirrors.started⟩
  have made := entered.newCell inside new bound
  obtain ⟨_, _, _, analysis, outer, visited, same, fits⟩ := holds
  obtain ⟨inner, found, scopes⟩ := visited.method member
  refine ⟨later, ⟨⟨rfl, pushed⟩, grown, fun id name among before _ => ?_⟩,
    { made with identity := congrArg (· + 1) made.identity }, .function ⟨made.identity, rfl,
      inner, .method, found, ?_⟩⟩
  · rcases List.mem_append.1 among with old | single
    · exact old
    · cases List.mem_singleton.1 single
      exact (Nat.lt_irrefl _ before).elim
  · rw [scopes, same]
    have cell : later[memory.cells.size]? = some (machine.frames.nextId, "this") := by
      rw [mirrors.size]
      exact List.getElem?_concat_length
    have names (name : String) : receiverScope.contains name = true ↔
        name ∈ ([("this", memory.cells.size)] : Env).map Prod.fst := by
      rw [receiverScope, Scope.contains_insert]
      simp
    exact fits.push mirrors.started grown receiver names (List.forall_mem_singleton.2 cell)

theorem name_functionUnlabelled {ρ : Type} (declaration : FunctionDecl ρ) :
    (Stmt.functionUnlabelled declaration).name = declaration.name := by
  cases declaration
  rfl

theorem methodsUnlabelled_eq_map {ρ : Type} (methods : List (FunctionDecl ρ)) :
    Stmt.methodsUnlabelled methods = methods.map Stmt.functionUnlabelled := by
  induction methods with
  | nil => rfl
  | cons first rest ih => rw [Stmt.methodsUnlabelled, ih, List.map_cons]

/-- Two classes that mirror each other have the same methods. -/
theorem method?_mirrors {frames : FrameStore Lox.Value} {cls : Lox.Class} {cls' : Class}
    (holds : Class.Mirrors texts layout frames cls cls') (name : String) :
    cls'.method? name = (cls.method? name).map Stmt.functionUnlabelled :=
  ClassOf.method?_eq_map (holds.methods.trans (methodsUnlabelled_eq_map _))
    (fun method => congrArg Token.lexeme (name_functionUnlabelled method)) name

/-- A property of an instance is a field or a method. -/
theorem follows_property {cls : Lox.Class} {cls' : Class} (identity : Nat) (name : Token)
    (mirrors : machine.Mirrors texts layout memory)
    (holds : Class.Mirrors texts layout machine.frames cls cls') :
    Follows texts false layout (Execution.property ⟨identity, cls⟩ name) machine
      (property ⟨identity, cls'⟩ name) memory (Value.Mirrors texts) := by
  apply Follows.get_bind
  have rel := mirrors.fields identity name.lexeme
  dsimp only
  generalize machine.fields[identity]?.bind (·[name.lexeme]?) = field at rel
  generalize memory.fields[identity]?.bind (·[name.lexeme]?) = field' at rel
  cases rel with
  | some same => exact .pure mirrors same
  | none =>
      rw [method?_mirrors holds]
      cases found : cls.method? name.lexeme with
      | none => exact .fail name _ mirrors
      | some method =>
          exact follows_bindMethod identity mirrors holds (ClassOf.mem_of_method? found)

end Values

end Lexical

end Lox
