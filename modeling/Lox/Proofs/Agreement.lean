/-
# Frames and scopes agree

The analysis knows scopes and the machine knows frames.  They agree
(`Agrees`) if there is one frame for each open scope, which binds every name
that the scope holds as initialized, and behind them the frame of the globals.

What keeps them in agreement is a property of all values: the home of a
function agrees with the scopes in which the analysis walked through its
declaration (`Value.Sound`).  Frames are never taken away, so what was true of
a value when it was made is true of it for ever, also when the scope in which
it was made has long been left.
-/

import Lox.Proofs.Execution
import Lox.Proofs.Visits

namespace Lox

open Analysis

/-- From a frame outwards there is one frame for each scope, which binds what
the scope holds as initialized, and then the frame of the globals. -/
def Agrees (frames : FrameStore Value) : FrameId → List Scope → Prop
  | id, [] => id = Machine.globals
  | id, scope :: outer => ∃ enclosing, frames.enclosing? id = some enclosing ∧
    (∀ name : String, scope[name]? = some true → frames.binds id name = true) ∧
    Agrees frames enclosing outer

namespace Agrees

variable {frames later : FrameStore Value} {id : FrameId} {scope : Scope} {scopes : List Scope}

theorem mono {isOpen : Option FrameId} (agrees : Agrees frames id scopes)
    (keeps : FrameStore.Keeps isOpen frames later) : Agrees later id scopes := by
  induction scopes generalizing id with
  | nil => exact agrees
  | cons scope outer ih =>
      obtain ⟨enclosing, found, bound, more⟩ := agrees
      refine ⟨enclosing, ?_, fun name held => keeps.names id name (bound name held), ih more⟩
      rw [keeps.enclosing id (FrameStore.lt_nextId_of_enclosing? found), found]

theorem lt_nextId (agrees : Agrees frames id scopes) (started : 0 < frames.nextId) :
    id < frames.nextId := by
  cases scopes with
  | nil => exact agrees ▸ started
  | cons scope outer =>
      obtain ⟨enclosing, found, _⟩ := agrees
      exact FrameStore.lt_nextId_of_enclosing? found

/-- A new frame agrees with a new scope. -/
theorem push (agrees : Agrees frames id scopes) (started : 0 < frames.nextId)
    {bindings : Bindings Value}
    (bound : ∀ name : String, scope[name]? = some true → (bindings[name]?).isSome = true) :
    Agrees (frames.push (some id) bindings) frames.nextId (scope :: scopes) := by
  refine ⟨id, ?_, fun name held => ?_, agrees.mono (FrameStore.Keeps.push frames _ bindings)⟩
  · rw [FrameStore.enclosing?_push, if_pos rfl, Option.filter_some,
      if_pos (by simpa using agrees.lt_nextId started)]
  · rw [FrameStore.binds, FrameStore.bound?_push, if_pos rfl]
    exact bound name held

/-- A name that is only declared need not be bound. -/
theorem declare (agrees : Agrees frames id scopes) (name : String) :
    Agrees frames id (declared name scopes) := by
  cases scopes with
  | nil => exact agrees
  | cons scope outer =>
      obtain ⟨enclosing, found, bound, more⟩ := agrees
      refine ⟨enclosing, found, fun key held => bound key ?_, more⟩
      rw [Bindings.getElem?_insert] at held
      split at held
      · cases held
      · exact held

/-- A name that is bound in the innermost frame is initialized in the innermost
scope. -/
theorem define (agrees : Agrees frames id scopes) (name : String) (value : Value) :
    Agrees (frames.define id name value) id (defined name (declared name scopes)) := by
  cases scopes with
  | nil => exact agrees
  | cons scope outer =>
      obtain ⟨enclosing, found, bound, more⟩ := agrees
      refine ⟨enclosing, by rw [FrameStore.enclosing?_define, found], fun key held => ?_,
        more.mono (.define frames name value)⟩
      rw [FrameStore.binds_define (FrameStore.lt_nextId_of_enclosing? found)]
      by_cases same : key = name
      · exact .inl ⟨rfl, same⟩
      · rw [Bindings.getElem?_insert, if_neg same, Bindings.getElem?_insert,
          if_neg same] at held
        exact .inr (bound key held)

/-- So many frames outwards is the frame of the scope so many scopes outwards,
and it is not yet that of the globals. -/
theorem ancestor? (agrees : Agrees frames id scopes) {distance : Nat}
    (found : scopes[distance]? = some scope) :
    ∃ frame, frames.ancestor? id distance = some frame ∧ frame ≠ Machine.globals ∧
      ∀ name : String, scope[name]? = some true → frames.binds frame name = true := by
  induction distance generalizing id scopes with
  | zero =>
      cases scopes with
      | nil => cases found
      | cons first outer =>
          cases found
          obtain ⟨enclosing, enclosed, bound, _⟩ := agrees
          exact ⟨id, rfl, Nat.ne_zero_of_lt (FrameStore.lt_of_enclosing? enclosed), bound⟩
  | succ distance ih =>
      cases scopes with
      | nil => cases found
      | cons first outer =>
          obtain ⟨enclosing, enclosed, _, more⟩ := agrees
          obtain ⟨frame, reached, others⟩ := ih more found
          exact ⟨frame, by rw [FrameStore.ancestor?, enclosed]; exact reached, others⟩

/-- Behind the frames of all scopes is that of the globals. -/
theorem ancestor?_length (agrees : Agrees frames id scopes) :
    frames.ancestor? id scopes.length = some Machine.globals := by
  induction scopes generalizing id with
  | nil => exact congrArg some agrees
  | cons scope outer ih =>
      obtain ⟨enclosing, enclosed, _, more⟩ := agrees
      rw [List.length_cons, FrameStore.ancestor?, enclosed]
      exact ih more

end Agrees

/-! ## Values -/

variable {texts : List Text} {frames later : FrameStore Value} {isOpen : Option FrameId}

/-- The home of a function agrees with the scopes around its declaration. -/
def Closure.Sound (texts : List Text) (frames : FrameStore Value) (closure : Closure) : Prop :=
  ∃ analysis kind, Visited texts analysis (.function kind closure.declaration) ∧
    Agrees frames closure.home analysis.scopes

/-- The home of a class agrees with the scopes around it. -/
def Class.Sound (texts : List Text) (frames : FrameStore Value) (cls : Class) : Prop :=
  ∃ analysis outer, Visited texts analysis (.methods cls.methods) ∧
    analysis.scopes = receiverScope :: outer ∧ Agrees frames cls.home outer

/-- The functions that a value stands for are sound. -/
def Value.Sound (texts : List Text) (frames : FrameStore Value) : Value → Prop
  | .function closure => Closure.Sound texts frames closure
  | .classValue cls => Class.Sound texts frames cls
  | .instanceValue object => Class.Sound texts frames object.ofClass
  | _ => True

theorem Closure.Sound.mono {closure : Closure} (sound : Closure.Sound texts frames closure)
    (keeps : FrameStore.Keeps isOpen frames later) : Closure.Sound texts later closure := by
  obtain ⟨analysis, kind, visited, agrees⟩ := sound
  exact ⟨analysis, kind, visited, agrees.mono keeps⟩

theorem Class.Sound.mono {cls : Class} (sound : Class.Sound texts frames cls)
    (keeps : FrameStore.Keeps isOpen frames later) : Class.Sound texts later cls := by
  obtain ⟨analysis, outer, visited, same, agrees⟩ := sound
  exact ⟨analysis, outer, visited, same, agrees.mono keeps⟩

theorem Value.Sound.mono {value : Value} (sound : Value.Sound texts frames value)
    (keeps : FrameStore.Keeps isOpen frames later) : Value.Sound texts later value := by
  cases value with
  | function closure => exact Closure.Sound.mono sound keeps
  | classValue cls => exact Class.Sound.mono sound keeps
  | instanceValue object => exact Class.Sound.mono sound keeps
  | _ => trivial

/-! ## Machines -/

/-- Every value that a machine keeps is sound. -/
structure Machine.Sound (texts : List Text) (machine : Machine) : Prop where
  started : 0 < machine.frames.nextId
  bound : ∀ id name value, machine.frames.bound? id name = some value →
    Value.Sound texts machine.frames value
  fields : ∀ (identity : Nat) (bindings : Bindings Value),
    machine.fields[identity]? = some bindings →
    ∀ (name : String) value, bindings[name]? = some value → Value.Sound texts machine.frames value

namespace Machine.Sound

variable {machine later : Machine}

/-- A machine on which frames have been kept is sound if every value that it
keeps was kept before or is sound. -/
theorem change (sound : machine.Sound texts)
    (keeps : FrameStore.Keeps isOpen machine.frames later.frames)
    (bound : ∀ id name value, later.frames.bound? id name = some value →
      machine.frames.bound? id name = some value ∨ Value.Sound texts later.frames value)
    (fields : ∀ (identity : Nat) (bindings : Bindings Value),
      later.fields[identity]? = some bindings → ∀ (name : String) value,
        bindings[name]? = some value →
          (∃ old : Bindings Value, machine.fields[identity]? = some old ∧
            old[name]? = some value) ∨ Value.Sound texts later.frames value) :
    later.Sound texts := by
  refine ⟨Nat.lt_of_lt_of_le sound.started keeps.size, fun id name value found => ?_,
    fun identity bindings found name value kept => ?_⟩
  · rcases bound id name value found with before | new
    · exact (sound.bound id name value before).mono keeps
    · exact new
  · rcases fields identity bindings found name value kept with ⟨old, before, held⟩ | new
    · exact (sound.fields identity old before name value held).mono keeps
    · exact new

/-- Binding a name to a value that is sound as soon as the name is bound. -/
theorem define (sound : machine.Sound texts) {id : FrameId} (inside : id < machine.frames.nextId)
    {name : String} {value : Value}
    (good : Value.Sound texts (machine.frames.define id name value) value) :
    ({ machine with frames := machine.frames.define id name value }).Sound texts := by
  apply sound.change (.define machine.frames name value)
  · intro other key found same
    rw [FrameStore.bound?_define inside] at same
    split at same
    · cases same
      exact .inr good
    · exact .inl same
  · exact fun _ bindings found _ _ held => .inl ⟨bindings, found, held⟩

/-- Making a frame that binds sound values, and going into it. -/
theorem entering (sound : machine.Sound texts) (enclosing : FrameId) {bindings : Bindings Value}
    (good : ∀ (name : String) value, bindings[name]? = some value →
      Value.Sound texts machine.frames value) (current : FrameId) :
    ({ machine with
        frames := machine.frames.push (some enclosing) bindings
        current := current } : Machine).Sound texts := by
  refine sound.change (.push machine.frames (some enclosing) bindings) ?_ ?_
  · intro id name value found
    rw [FrameStore.bound?_push] at found
    split at found
    · exact .inr ((good name value found).mono (.push machine.frames (some enclosing) bindings))
    · exact .inl found
  · exact fun _ bindings found _ _ held => .inl ⟨bindings, found, held⟩

/-- Setting a field to a sound value. -/
theorem setField (sound : machine.Sound texts) (identity : Nat) (name : String) {value : Value}
    (good : Value.Sound texts machine.frames value) :
    ({ machine with fields := machine.fields.modify identity (·.insert name value) }).Sound
      texts := by
  refine sound.change (?_ : FrameStore.Keeps none _ _) (fun _ _ _ found => .inl found) ?_
  · exact .refl machine.frames
  · intro other bindings found key held
    simp only [Array.getElem?_modify] at found
    split at found
    · obtain ⟨old, before, rfl⟩ := Option.map_eq_some_iff.1 found
      intro kept
      rw [Bindings.getElem?_insert] at kept
      split at kept
      · cases kept
        exact .inr good
      · exact .inl ⟨old, before, kept⟩
    · exact fun kept => .inl ⟨bindings, found, kept⟩

/-- Making an instance without fields. -/
theorem newInstance (sound : machine.Sound texts) :
    ({ machine with fields := machine.fields.push {} }).Sound texts := by
  refine sound.change (?_ : FrameStore.Keeps none _ _) (fun _ _ _ found => .inl found) ?_
  · exact .refl machine.frames
  · intro identity bindings found name value held
    simp only [Array.getElem?_push] at found
    split at found
    · cases found
      simp at held
    · exact .inl ⟨bindings, found, held⟩

/-- Nothing but the frames and the fields matters. -/
theorem congr (sound : machine.Sound texts) (frames : later.frames = machine.frames)
    (fields : later.fields = machine.fields) : later.Sound texts :=
  ⟨frames ▸ sound.started, frames ▸ sound.bound, frames ▸ fields ▸ sound.fields⟩

end Machine.Sound

end Lox
