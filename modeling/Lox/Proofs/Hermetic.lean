/-
# Scopes are hermetic

A program cannot reach into a frame to declare something there.  Whatever is run,
and however it ends, an expression adds no name to any frame that was there before
it, and a statement adds names at most to the frame in which it started; no name is
ever removed, and no frame is moved into another one (`FrameStore.Sealed`).  So from
every frame the way outwards stays what it was, and it ends where it ended.

A block, and the body of a function or a method, has a frame of its own.  Hence
nothing inside them declares a global, and an assignment declares nothing at all.

This is told of all trees, of all machines and of all distances, also of those that
no text ever comes to.
-/

import Lox.Proofs.Execution

namespace Lox

namespace FrameStore

variable {α : Type} {isOpen : Option FrameId} {first second : FrameStore α}

/-- The way outwards from a frame ends with a frame that nothing encloses. -/
def EndsIn (store : FrameStore α) (id last : FrameId) : Prop :=
  ∃ distance, store.ancestor? id distance = some last ∧ store.enclosing? last = none

/-- What was in the earlier store is in the later one, with the way outwards from
every frame, and names have been added at most to the open frame. -/
structure Sealed (isOpen : Option FrameId) (earlier later : FrameStore α) : Prop
    extends Keeps isOpen earlier later where
  /-- A frame that is not open binds the same names. -/
  sameNames : ∀ id < earlier.nextId, isOpen ≠ some id →
    ∀ name, later.binds id name = earlier.binds id name
  chain : ∀ id < earlier.nextId, ∀ distance,
    later.ancestor? id distance = earlier.ancestor? id distance
  ends : ∀ id < earlier.nextId, ∃ last, earlier.EndsIn id last ∧ later.EndsIn id last

/-- Every way outwards ends, because an enclosing frame has the smaller number. -/
theorem exists_endsIn (store : FrameStore α) (id : FrameId) :
    ∃ last ≤ id, store.EndsIn id last := by
  induction id using Nat.strongRecOn with
  | ind id ih =>
      cases enclosed : store.enclosing? id with
      | none => exact ⟨id, Nat.le_refl id, 0, rfl, enclosed⟩
      | some outer =>
          have smaller := lt_of_enclosing? enclosed
          obtain ⟨last, below, distance, reached, root⟩ := ih outer smaller
          refine ⟨last, Nat.le_trans below (Nat.le_of_lt smaller), distance + 1, ?_, root⟩
          rw [ancestor?, enclosed]
          exact reached

namespace Keeps

/-- The way outwards from a frame leads through the same frames as before. -/
theorem ancestor? (keeps : Keeps isOpen first second) {id : FrameId} (inside : id < first.nextId)
    (distance : Nat) : second.ancestor? id distance = first.ancestor? id distance := by
  induction distance generalizing id with
  | zero => rfl
  | succ distance ih =>
      rw [FrameStore.ancestor?, FrameStore.ancestor?, keeps.enclosing id inside]
      cases enclosed : first.enclosing? id with
      | none => rfl
      | some outer => exact ih (Nat.lt_trans (lt_of_enclosing? enclosed) inside)

theorem endsIn (keeps : Keeps isOpen first second) {id last : FrameId}
    (inside : id < first.nextId) (below : last ≤ id) (ends : first.EndsIn id last) :
    second.EndsIn id last := by
  obtain ⟨distance, reached, root⟩ := ends
  refine ⟨distance, (keeps.ancestor? inside distance).trans reached, ?_⟩
  rw [keeps.enclosing last (Nat.lt_of_le_of_lt below inside), root]

/-- A frame that is not open binds the names that it bound. -/
theorem binds_eq (keeps : Keeps isOpen first second) {id : FrameId} (inside : id < first.nextId)
    (other : isOpen ≠ some id) (name : String) : second.binds id name = first.binds id name :=
  Bool.eq_iff_iff.2 ⟨keeps.noOthers id inside other name, keeps.names id name⟩

theorem isSealed (keeps : Keeps isOpen first second) : Sealed isOpen first second where
  toKeeps := keeps
  sameNames _ inside other name := keeps.binds_eq inside other name
  chain _ inside distance := keeps.ancestor? inside distance
  ends id inside := by
    obtain ⟨last, below, ends⟩ := first.exists_endsIn id
    exact ⟨last, ends, keeps.endsIn inside below ends⟩

end Keeps

end FrameStore

namespace Execution

variable {α : Type}

/-- However it ends, a computation adds names at most to one frame, which depends on
the machine on which it starts. -/
def Seals (isOpen : Machine → Option FrameId) (computation : Execution α) : Prop :=
  ∀ machine, Ensures computation machine
    (fun _ later => FrameStore.Sealed (isOpen machine) machine.frames later.frames)
    fun _ later => FrameStore.Sealed (isOpen machine) machine.frames later.frames

variable {computation : Execution α}

theorem Stays.seals (stays : Stays false computation) : Seals (fun _ => none) computation :=
  fun machine => (stays machine).mono (fun _ _ kept => kept.frames.isSealed)
    fun _ _ kept => kept.frames.isSealed

theorem Stays.seals_current (stays : Stays true computation) :
    Seals (fun machine => some machine.current) computation :=
  fun machine => (stays machine).mono (fun _ _ kept => kept.frames.isSealed)
    fun _ _ kept => kept.frames.isSealed

/-- What runs in another frame adds names at most to that one. -/
theorem Stays.seals_within (stays : Stays true computation) (frame : FrameId) :
    Seals (fun _ => some frame) (within frame computation) := by
  intro machine
  apply ensures_within
  exact (stays { machine with current := frame }).mono (fun _ _ kept => kept.frames.isSealed)
    fun _ _ kept => kept.frames.isSealed

/-- The names of all frames are the same, and there are no others. -/
def DeclaresNothing (computation : Execution α) : Prop :=
  ∀ machine, Ensures computation machine
    (fun _ later => later.frames.nextId = machine.frames.nextId ∧
      ∀ id name, later.frames.binds id name = machine.frames.binds id name)
    fun _ later => later = machine

/-- A name that is bound in a frame and given another value there is still bound, and
no other name is. -/
theorem declaresNothing_assign (distance : Option Nat) (name : Token) (value : Value) :
    DeclaresNothing (assign distance name value) := by
  intro machine
  apply ensures_bind
  · rintro _ _ ⟨⟩
    dsimp only
    split
    · next binder found =>
        have bound : machine.frames.binds binder name.lexeme = true := by
          cases distance with
          | none => exact FrameStore.binds_of_binder? found
          | some distance => exact (Option.filter_eq_some_iff.1 found).2
        refine ⟨FrameStore.nextId_define .., fun id key => Bool.eq_iff_iff.2 ?_⟩
        rw [FrameStore.binds_define (FrameStore.lt_nextId_of_binds bound)]
        constructor
        · rintro (⟨rfl, rfl⟩ | before)
          · exact bound
          · exact before
        · exact .inr
    · rfl
  · rintro _ _ ⟨⟩

end Execution

open Execution

/-- A block has a frame of its own for its names. -/
theorem stays_block (distances : Distances) (allowance : Nat) (body : List (Stmt Reference)) :
    Stays false (execute distances allowance (.block body)) := by
  cases allowance with
  | zero => exact stays_throw _
  | succ allowance =>
      apply stays_get.bind
      intro machine
      exact stays_inside machine.current {} (stays_executeAll allowance body)

/-- However it ends, an expression, a call and a block add no name to any frame that
was there before; a statement, a loop, a row of statements and a whole program add
names at most to the frame in which they start, and a row of statements that is run
in another frame adds them there.  No name is removed from a frame, and no frame is
moved, so that the way outwards from it stays the same and ends where it did.  An
assignment adds no name to any frame. -/
theorem scopes_hermetic (distances : Distances) (allowance : Nat) :
    (∀ expr, Seals (fun _ => none) (evaluate distances allowance expr)) ∧
    (∀ exprs, Seals (fun _ => none) (evaluateAll distances allowance exprs)) ∧
    (∀ callee paren arguments,
      Seals (fun _ => none) (call distances allowance callee paren arguments)) ∧
    (∀ body, Seals (fun _ => none) (execute distances allowance (.block body))) ∧
    (∀ stmt, Seals (fun machine => some machine.current) (execute distances allowance stmt)) ∧
    (∀ condition body,
      Seals (fun machine => some machine.current) (loop distances allowance condition body)) ∧
    (∀ stmts, Seals (fun machine => some machine.current) (executeAll distances allowance stmts)) ∧
    (∀ frame stmts,
      Seals (fun _ => some frame) (within frame (executeAll distances allowance stmts))) ∧
    (∀ program,
      Seals (fun machine => some machine.current) (interpret distances allowance program)) ∧
    ∀ distance name value, DeclaresNothing (assign distance name value) := by
  refine ⟨?_, ?_, ?_, ?_, ?_, ?_, ?_, ?_, ?_, declaresNothing_assign⟩
  · exact fun expr => (stays_evaluate allowance expr).seals
  · exact fun exprs => (stays_evaluateAll allowance exprs).seals
  · exact fun callee paren arguments => (stays_call allowance callee paren arguments).seals
  · exact fun body => (stays_block distances allowance body).seals
  · exact fun stmt => (stays_execute allowance stmt).seals_current
  · exact fun condition body => (stays_loop allowance condition body).seals_current
  · exact fun stmts => (stays_executeAll allowance stmts).seals_current
  · exact fun frame stmts => (stays_executeAll allowance stmts).seals_within frame
  · exact fun program => (stays_interpret allowance program).seals_current

end Lox
