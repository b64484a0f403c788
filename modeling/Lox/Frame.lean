/-
# Frames

A frame binds names to values and may be enclosed by another frame.  Frames
live in a store and are known by their number; several frames may share one
that encloses them, and all of them see what is written there.

A frame is made inside a frame that is already there, so the number of the
enclosing frame is the smaller one.  The store keeps this as a fact, and a
search outwards ends because of it.

There are two ways to find a name.  The *search* (`get?`, `assign?`) goes
outwards from a frame to the nearest one that binds the name.  The *access at
a distance* (`getAt?`, `assignAt?`) goes exactly so many frames outwards and
looks nowhere else.  Neither ever adds a binding; only `define` does.
-/

import Std.Data.TreeMap

namespace Lox

/-- The number of a frame in its store, in the order in which they were
made. -/
abbrev FrameId := Nat

/-- The names that one frame binds. -/
abbrev Bindings (α : Type) := Std.TreeMap String α

/-- The bindings of a frame and the frame around it. -/
structure Frame (α : Type) where
  bindings : Bindings α := {}
  enclosing : Option FrameId := none

/-- All frames that were ever made. -/
structure FrameStore (α : Type) where
  frames : Array (Frame α) := #[]
  /-- A frame is enclosed by an earlier one. -/
  enclosing_lt : ∀ (id : Nat) (h : id < frames.size) (outer : FrameId),
    frames[id].enclosing = some outer → outer < id := by simp

namespace FrameStore

variable {α : Type}

/-- The frame with a number. -/
def frame? (store : FrameStore α) (id : FrameId) : Option (Frame α) :=
  store.frames[id]?

/-- The frame around a frame. -/
def enclosing? (store : FrameStore α) (id : FrameId) : Option FrameId :=
  (store.frame? id).bind Frame.enclosing

theorem lt_of_enclosing? {store : FrameStore α} {id outer : FrameId}
    (h : store.enclosing? id = some outer) : outer < id := by
  simp only [enclosing?, frame?, Option.bind_eq_some_iff] at h
  obtain ⟨frame, found, enclosed⟩ := h
  obtain ⟨inside, rfl⟩ := Array.getElem?_eq_some_iff.1 found
  exact store.enclosing_lt id inside outer enclosed

/-- The number that the next frame will have. -/
def nextId (store : FrameStore α) : FrameId :=
  store.frames.size

/-- Makes a frame with some bindings.  An enclosing frame that is not in the
store counts as none. -/
def push (store : FrameStore α) (enclosing : Option FrameId) (bindings : Bindings α := {}) :
    FrameStore α where
  frames := store.frames.push ⟨bindings, enclosing.filter (· < store.frames.size)⟩
  enclosing_lt id h outer := by
    rw [Array.getElem_push]
    split
    · exact store.enclosing_lt id _ outer
    · next later =>
      intro enclosed
      simp only [Option.filter_eq_some_iff, decide_eq_true_eq] at enclosed
      exact Nat.lt_of_lt_of_le enclosed.2 (Nat.le_of_not_lt later)

/-- Changes the bindings of one frame. -/
def modify (store : FrameStore α) (id : FrameId) (change : Bindings α → Bindings α) :
    FrameStore α where
  frames := store.frames.modify id fun frame => { frame with bindings := change frame.bindings }
  enclosing_lt other h outer := by
    rw [Array.getElem_modify]
    have inside : other < store.frames.size := by simpa using h
    split <;> exact store.enclosing_lt other inside outer

/-- Binds a name in a frame, in place of any binding of it there. -/
def define (store : FrameStore α) (id : FrameId) (name : String) (value : α) : FrameStore α :=
  store.modify id (·.insert name value)

/-- What a frame itself binds a name to. -/
def bound? (store : FrameStore α) (id : FrameId) (name : String) : Option α :=
  (store.frame? id).bind (·.bindings[name]?)

/-- Whether a frame itself binds a name. -/
def binds (store : FrameStore α) (id : FrameId) (name : String) : Bool :=
  (store.bound? id name).isSome

/-- The frame so many frames outwards, if there are so many. -/
def ancestor? (store : FrameStore α) (id : FrameId) : Nat → Option FrameId
  | 0 => some id
  | distance + 1 =>
    match store.enclosing? id with
    | some outer => store.ancestor? outer distance
    | none => none

/-- The nearest frame, from a frame outwards, that binds a name. -/
def binder? (store : FrameStore α) (id : FrameId) (name : String) : Option FrameId :=
  if store.binds id name then some id
  else
    match _enclosed : store.enclosing? id with
    | some outer => store.binder? outer name
    | none => none
termination_by id
decreasing_by exact lt_of_enclosing? _enclosed

/-- Looks a name up from a frame outwards. -/
def get? (store : FrameStore α) (id : FrameId) (name : String) : Option α :=
  (store.binder? id name).bind fun binder => store.bound? binder name

/-- Writes a name where a search from a frame outwards finds it. -/
def assign? (store : FrameStore α) (id : FrameId) (name : String) (value : α) :
    Option (FrameStore α) :=
  (store.binder? id name).map fun binder => store.define binder name value

/-- Looks a name up in the frame at a distance. -/
def getAt? (store : FrameStore α) (id : FrameId) (distance : Nat) (name : String) : Option α :=
  (store.ancestor? id distance).bind fun frame => store.bound? frame name

/-- The frame at a distance, if it binds a name. -/
def binderAt? (store : FrameStore α) (id : FrameId) (distance : Nat) (name : String) :
    Option FrameId :=
  (store.ancestor? id distance).filter fun frame => store.binds frame name

/-- Writes a name that the frame at a distance binds. -/
def assignAt? (store : FrameStore α) (id : FrameId) (distance : Nat) (name : String)
    (value : α) : Option (FrameStore α) :=
  (store.binderAt? id distance name).map fun binder => store.define binder name value

end FrameStore

end Lox
