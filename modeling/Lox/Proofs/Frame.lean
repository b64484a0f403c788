/-
# What happens to frames

A frame that was made stays, with the frame around it and the names that it
binds (`FrameStore.Keeps`).  What may be added to it depends on what runs: an
expression adds no name to any frame that was there before, a statement only
to the current one.
-/

import Mathlib.Tactic.ByContra
import Lox.Frame

namespace Lox

theorem Bindings.getElem?_insert {α : Type} (bindings : Bindings α) (name key : String)
    (value : α) : (bindings.insert name value)[key]? =
      if key = name then some value else bindings[key]? := by
  rw [Std.TreeMap.getElem?_insert]
  by_cases same : key = name
  · rw [if_pos same, if_pos (by rw [same]; exact Std.ReflOrd.compare_self)]
  · rw [if_neg same, if_neg fun equal => same (Std.LawfulEqOrd.eq_of_compare equal).symm]

/-- A name is given a value in one row of bindings. -/
theorem Bindings.getElem?_modify_insert {α : Type} (rows : Array (Bindings α)) (row other : Nat)
    (name key : String) (value : α) :
    (rows.modify row (·.insert name value))[other]?.bind (·[key]?) =
      if row = other ∧ other < rows.size ∧ key = name then some value
      else rows[other]?.bind (·[key]?) := by
  rw [Array.getElem?_modify]
  by_cases same : row = other
  · by_cases inside : other < rows.size
    · rw [if_pos same, Array.getElem?_eq_getElem inside, Option.map_some, Option.bind_some,
        Option.bind_some, Bindings.getElem?_insert]
      simp only [same, inside, true_and]
    · rw [if_pos same, Array.getElem?_eq_none (Nat.le_of_not_lt inside), if_neg]
      · rfl
      · exact fun both => inside both.2.1
  · rw [if_neg same, if_neg fun both => same both.1]

namespace FrameStore

variable {α : Type} (store : FrameStore α)

/-! ## Single steps -/

theorem frame?_eq_none {store : FrameStore α} {id : FrameId} :
    store.frame? id = none ↔ store.nextId ≤ id := by
  simp [frame?, nextId]

theorem lt_nextId_of_frame? {store : FrameStore α} {id : FrameId} {frame : Frame α}
    (found : store.frame? id = some frame) : id < store.nextId := by
  by_contra beyond
  rw [frame?_eq_none.2 (Nat.le_of_not_lt beyond)] at found
  cases found

theorem lt_nextId_of_enclosing? {store : FrameStore α} {id outer : FrameId}
    (found : store.enclosing? id = some outer) : id < store.nextId := by
  obtain ⟨frame, found, _⟩ := Option.bind_eq_some_iff.1 found
  exact lt_nextId_of_frame? found

/-- The first frame is not enclosed. -/
theorem enclosing?_zero : store.enclosing? 0 = none := by
  cases enclosed : store.enclosing? 0 with
  | none => rfl
  | some outer => exact absurd (lt_of_enclosing? enclosed) (Nat.not_lt_zero outer)

theorem binder?_zero (name : String) :
    store.binder? 0 name = if store.binds 0 name then some 0 else none := by
  rw [binder?]
  split
  · rfl
  · split
    · next outer enclosed =>
        rw [enclosing?_zero] at enclosed
        cases enclosed
    · rfl

theorem get?_zero (name : String) : store.get? 0 name = store.bound? 0 name := by
  rw [get?, binder?_zero]
  by_cases binds : store.binds 0 name = true
  · rw [if_pos binds]
    rfl
  · rw [if_neg binds]
    rw [FrameStore.binds, Option.not_isSome_iff_eq_none] at binds
    rw [binds]
    rfl

theorem lt_nextId_of_binds {store : FrameStore α} {id : FrameId} {name : String}
    (binds : store.binds id name = true) : id < store.nextId := by
  obtain ⟨value, bound⟩ := Option.isSome_iff_exists.1 binds
  obtain ⟨frame, found, _⟩ := Option.bind_eq_some_iff.1 bound
  exact lt_nextId_of_frame? found

theorem binds_iff {store : FrameStore α} {id : FrameId} {name : String} :
    store.binds id name = true ↔ ∃ value, store.bound? id name = some value :=
  Option.isSome_iff_exists

/-- A search ends in a frame that binds the name. -/
theorem binds_of_binder? {store : FrameStore α} {id binder : FrameId} {name : String}
    (found : store.binder? id name = some binder) : store.binds binder name = true := by
  induction id using Nat.strongRecOn with
  | ind id ih =>
      rw [binder?] at found
      split at found
      · next here =>
          cases found
          exact here
      · split at found
        · next outer enclosed => exact ih outer (lt_of_enclosing? enclosed) found
        · cases found

@[simp]
theorem nextId_push (enclosing : Option FrameId) (bindings : Bindings α) :
    (store.push enclosing bindings).nextId = store.nextId + 1 := by
  simp [nextId, push]

@[simp]
theorem nextId_define (id : FrameId) (name : String) (value : α) :
    (store.define id name value).nextId = store.nextId := by
  simp [nextId, define, modify]

theorem frame?_push (enclosing : Option FrameId) (bindings : Bindings α) (id : FrameId) :
    (store.push enclosing bindings).frame? id =
      if id = store.nextId then some ⟨bindings, enclosing.filter (· < store.nextId)⟩
      else store.frame? id := by
  show (Array.push _ _)[id]? = _
  rw [Array.getElem?_push]
  rfl

theorem frame?_define (id other : FrameId) (name : String) (value : α) :
    (store.define id name value).frame? other =
      (store.frame? other).map fun frame =>
        if other = id then { frame with bindings := frame.bindings.insert name value }
        else frame := by
  show (Array.modify _ _ _)[other]? = _
  rw [Array.getElem?_modify]
  by_cases same : id = other
  · subst same
    simp [frame?]
  · rw [if_neg same]
    simp [frame?, Ne.symm same]

theorem enclosing?_push (enclosing : Option FrameId) (bindings : Bindings α) (id : FrameId) :
    (store.push enclosing bindings).enclosing? id =
      if id = store.nextId then enclosing.filter (· < store.nextId)
      else store.enclosing? id := by
  rw [enclosing?, frame?_push]
  split <;> rfl

@[simp]
theorem enclosing?_define (id other : FrameId) (name : String) (value : α) :
    (store.define id name value).enclosing? other = store.enclosing? other := by
  rw [enclosing?, frame?_define, enclosing?]
  cases store.frame? other with
  | none => rfl
  | some frame =>
      simp only [Option.map_some, Option.bind_some]
      split <;> rfl

theorem bound?_push (enclosing : Option FrameId) (bindings : Bindings α) (id : FrameId)
    (name : String) : (store.push enclosing bindings).bound? id name =
      if id = store.nextId then bindings[name]? else store.bound? id name := by
  rw [bound?, frame?_push]
  split <;> rfl

theorem bound?_define {store : FrameStore α} {id : FrameId} (inside : id < store.nextId)
    (other : FrameId) (name key : String) (value : α) :
    (store.define id name value).bound? other key =
      if other = id ∧ key = name then some value else store.bound? other key := by
  rw [bound?, frame?_define, bound?]
  cases found : store.frame? other with
  | none =>
      rw [if_neg]
      · rfl
      · rintro ⟨rfl, -⟩
        exact absurd (frame?_eq_none.1 found) (Nat.not_le.2 inside)
  | some frame =>
      simp only [Option.map_some, Option.bind_some]
      by_cases same : other = id
      · rw [if_pos same]
        simpa only [same, true_and] using frame.bindings.getElem?_insert name key value
      · rw [if_neg same, if_neg fun both => same both.1]

theorem binds_define {store : FrameStore α} {id : FrameId} (inside : id < store.nextId)
    (other : FrameId) (name key : String) (value : α) :
    (store.define id name value).binds other key = true ↔
      (other = id ∧ key = name) ∨ store.binds other key = true := by
  rw [binds, bound?_define inside]
  split
  · next both => simp [both]
  · next other => simp [other, binds]

theorem binds_push (enclosing : Option FrameId) (bindings : Bindings α) {id : FrameId}
    (inside : id < store.nextId) (name : String) :
    (store.push enclosing bindings).binds id name = store.binds id name := by
  rw [binds, bound?_push, if_neg (Nat.ne_of_lt inside)]
  rfl

/-! ## What stays -/

/-- What was in the earlier store is in the later one, and names have been added
at most to one of its frames, the open one. -/
structure Keeps (isOpen : Option FrameId) (earlier later : FrameStore α) : Prop where
  size : earlier.nextId ≤ later.nextId
  enclosing : ∀ id < earlier.nextId, later.enclosing? id = earlier.enclosing? id
  names : ∀ id name, earlier.binds id name = true → later.binds id name = true
  noOthers : ∀ id < earlier.nextId, isOpen ≠ some id →
    ∀ name, later.binds id name = true → earlier.binds id name = true

namespace Keeps

variable {isOpen : Option FrameId} {first second third : FrameStore α}

theorem refl (store : FrameStore α) : Keeps isOpen store store :=
  ⟨Nat.le_refl _, fun _ _ => rfl, fun _ _ => id, fun _ _ _ _ => id⟩

theorem trans (before : Keeps isOpen first second) (behind : Keeps isOpen second third) :
    Keeps isOpen first third where
  size := Nat.le_trans before.size behind.size
  enclosing id inside := by
    rw [behind.enclosing id (Nat.lt_of_lt_of_le inside before.size), before.enclosing id inside]
  names id name bound := behind.names id name (before.names id name bound)
  noOthers id inside other name bound :=
    before.noOthers id inside other name
      (behind.noOthers id (Nat.lt_of_lt_of_le inside before.size) other name bound)

/-- What adds no name at all adds none but to an open frame. -/
theorem opening (keeps : Keeps none first second) : Keeps isOpen first second :=
  ⟨keeps.size, keeps.enclosing, keeps.names, fun id inside _ => keeps.noOthers id inside nofun⟩

theorem define {id : FrameId} (name : String) (value : α) :
    Keeps (some id) store (store.define id name value) := by
  refine ⟨Nat.le_of_eq (nextId_define ..).symm, fun other _ => enclosing?_define ..,
    fun other key bound => ?_, fun other _ different key bound => ?_⟩
  · by_cases inside : id < store.nextId
    · exact (binds_define inside other name key value).2 (.inr bound)
    · rw [binds, bound?, frame?_define]
      obtain ⟨old, found⟩ := binds_iff.1 bound
      obtain ⟨frame, found, same⟩ := Option.bind_eq_some_iff.1 found
      have different : other ≠ id := fun same =>
        inside (same ▸ lt_nextId_of_frame? found)
      simp [found, different, same]
  · have different : other ≠ id := fun same => different (congrArg some same.symm)
    rw [binds, bound?, frame?_define] at bound
    rw [binds, bound?]
    simpa [different] using bound

/-- A name that is already bound may be given another value anywhere. -/
theorem assign {id : FrameId} {name : String} (bound : store.binds id name = true) (value : α) :
    Keeps none store (store.define id name value) := by
  have inside := lt_nextId_of_binds bound
  refine ⟨Nat.le_of_eq (nextId_define ..).symm, fun other _ => enclosing?_define ..,
    fun other key before => ?_, fun other _ _ key after => ?_⟩
  · exact (binds_define inside other name key value).2 (.inr before)
  · rcases (binds_define inside other name key value).1 after with ⟨rfl, rfl⟩ | before
    · exact bound
    · exact before

theorem push (enclosing : Option FrameId) (bindings : Bindings α) :
    Keeps none store (store.push enclosing bindings) := by
  refine ⟨by simp, fun id inside => ?_, fun id name bound => ?_, fun id inside _ name bound => ?_⟩
  · rw [enclosing?_push, if_neg (Nat.ne_of_lt inside)]
  · rwa [binds_push store enclosing bindings (lt_nextId_of_binds bound)]
  · rwa [binds_push store enclosing bindings inside] at bound

/-- Names that are added to a new frame are added to none that was there. -/
theorem within {enclosing : Option FrameId} {bindings : Bindings α} {later : FrameStore α}
    (keeps : Keeps (some store.nextId) (store.push enclosing bindings) later) :
    Keeps none store later := by
  have pushed := push store enclosing bindings
  refine ⟨Nat.le_trans pushed.size keeps.size, fun id inside => ?_, fun id name bound =>
    keeps.names id name (pushed.names id name bound), fun id inside _ name bound => ?_⟩
  · rw [keeps.enclosing id (Nat.lt_of_lt_of_le inside pushed.size), pushed.enclosing id inside]
  · have different : some store.nextId ≠ some id := fun same =>
      Nat.ne_of_gt inside (Option.some.inj same)
    have before := keeps.noOthers id (Nat.lt_of_lt_of_le inside pushed.size) different name bound
    exact pushed.noOthers id inside nofun name before

end Keeps

end FrameStore

end Lox
