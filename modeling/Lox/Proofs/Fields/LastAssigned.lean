/-
# A field holds what was assigned to it last

In a session, whatever texts are entered and whatever becomes of them, a field of an
instance holds what was assigned to it last, and nothing before the first assignment.
So a property that was ever assigned is read as the value of its last assignment, by
whatever name the instance is reached and from wherever; only before that a method is
found, or nothing.  An assignment changes the one field that it names.

Which assignment is the last one is told by the trace of the session, in which every
property that is read or assigned at any moment has its place.
-/

import Lox.Proofs.Fields.Moments
import Lox.Proofs.Fields.Run

namespace Lox

open Execution

namespace FieldEvent

/-- The instance to which something happens. -/
def object : FieldEvent → Instance
  | .made object _ => object
  | .read object _ _ => object
  | .assigned object _ _ _ => object

/-- The machine on which it happens. -/
def machine : FieldEvent → Machine
  | .made _ machine => machine
  | .read _ _ machine => machine
  | .assigned _ _ _ machine => machine

/-- What comes of it. -/
def outcome : FieldEvent → EStateM.Result Interrupt Machine Value
  | .made object machine => newInstance object.ofClass machine
  | .read object name machine => property object name machine
  | .assigned object name value machine =>
    (setField object name.lexeme value >>= fun _ => pure value) machine

end FieldEvent

namespace Moment

variable {distances : Distances} {moment : Moment} {event : FieldEvent}

/-- What comes of a moment at which an expression is evaluated or something is called. -/
def outcome? (distances : Distances) (moment : Moment) :
    Option (EStateM.Result Interrupt Machine Value) :=
  match moment.task with
  | .evaluate expr => some (evaluate distances moment.allowance expr moment.machine)
  | .call callee paren arguments =>
    some (Lox.call distances moment.allowance callee paren arguments moment.machine)
  | _ => none

/-- A moment ends with what it brings. -/
theorem Brings.outcome (brings : moment.Brings distances event) :
    moment.outcome? distances = some event.outcome := by
  cases brings with
  | made => rfl
  | read ran =>
      simp only [outcome?, evaluate, bind_of_ok ran]
      rfl
  | assigned ran ran' =>
      simp only [outcome?, evaluate, bind_of_ok ran, bind_of_ok ran']
      rfl

end Moment

/-- The machine when a method has been read from an instance: a new frame inside the home
of the class binds `this` to the instance. -/
def Machine.receiving (machine : Machine) (object : Instance) : Machine :=
  { machine with
    frames := machine.frames.push (some object.ofClass.home)
      (({} : Bindings Value).insert "this" (.instanceValue object))
    nextIdentity := machine.nextIdentity + 1 }

/-! ## Reading a property -/

section Property

variable {object : Instance} {name : Token} {machine : Machine}

theorem property_of_field {value : Value}
    (field : machine.field? object.identity name.lexeme = some value) :
    property object name machine = .ok value machine := by
  have found : machine.fields[object.identity]?.bind (·[name.lexeme]?) = some value := field
  rw [property, get_bind_apply, found]
  rfl

theorem property_of_method {method : FunctionDecl Reference}
    (noField : machine.field? object.identity name.lexeme = none)
    (declared : object.ofClass.method? name.lexeme = some method) :
    property object name machine =
      .ok (.function ⟨machine.nextIdentity, method, machine.frames.nextId⟩)
        (machine.receiving object) := by
  have none : machine.fields[object.identity]?.bind (·[name.lexeme]?) = none := noField
  rw [property, get_bind_apply, none, declared]
  rfl

theorem property_undefined (noField : machine.field? object.identity name.lexeme = none)
    (noMethod : object.ofClass.method? name.lexeme = none) :
    property object name machine =
      .error (.runtime ⟨.undefinedProperty name.lexeme, name.line⟩) machine := by
  have none : machine.fields[object.identity]?.bind (·[name.lexeme]?) = none := noField
  rw [property, get_bind_apply, none, noMethod]
  rfl

/-- Whatever is found, no field changes. -/
theorem fields_property (object : Instance) (name : Token) (machine : Machine) :
    (machineOf (property object name machine)).fields = machine.fields := by
  cases field : machine.field? object.identity name.lexeme with
  | some value => rw [property_of_field field]; rfl
  | none =>
      cases declared : object.ofClass.method? name.lexeme with
      | some method => rw [property_of_method field declared]; rfl
      | none => rw [property_undefined field declared]; rfl

end Property

/-! ## Events -/

namespace Machine.Records

variable {machine : Machine} {events : List FieldEvent}

/-- The instances of a trace have identities of their own. -/
theorem identities (records : machine.Records events) :
    (instancesOf events).map InstanceOf.identity = List.range machine.fields.size := by
  apply List.ext_getElem?
  intro place
  rw [List.getElem?_map, records.size]
  cases found : (instancesOf events)[place]? with
  | none =>
      rw [List.getElem?_eq_none_iff] at found
      rw [List.getElem?_eq_none (by rwa [List.length_range])]
      rfl
  | some object =>
      have inside := (List.getElem?_eq_some_iff.1 found).1
      rw [Option.map_some, records.identity place object found, List.getElem?_range inside]

/-- An identity that was not given away has no fields. -/
theorem lastAssigned_size (records : machine.Records events) (name : String) :
    lastAssigned events machine.fields.size name = none := by
  rw [← records.field, Machine.field?, Array.getElem?_size]
  rfl

end Machine.Records

/-- What happens goes by these rules, given what happened before. -/
structure FieldEvent.Lawful (before : List FieldEvent) (event : FieldEvent) : Prop where
  /-- Every field of every instance holds what was assigned to it last. -/
  fields : ∀ identity name,
    event.machine.field? identity name = lastAssigned before identity name
  /-- It happens to an instance that was made, if it is not made just now. -/
  known : event.object ∈ instancesOf (before ++ [event])
  /-- No two instances have one identity. -/
  apart : ((instancesOf (before ++ [event])).map InstanceOf.identity).Nodup
  /-- A new instance has no fields. -/
  made : ∀ object machine, event = .made object machine →
    (∃ later, event.outcome = .ok (.instanceValue object) later) ∧
      ∀ name, lastAssigned before object.identity name = none
  /-- A property that was assigned is read as the value that was assigned last.  Another one
  is the method of this name, as a function in a frame that binds `this`, and an error if
  there is no such method.  No field changes. -/
  read : ∀ object name machine, event = .read object name machine →
    (∀ value, lastAssigned before object.identity name.lexeme = some value →
      event.outcome = .ok value machine) ∧
    (lastAssigned before object.identity name.lexeme = none →
      (∀ method, object.ofClass.method? name.lexeme = some method →
        event.outcome =
          .ok (.function ⟨machine.nextIdentity, method, machine.frames.nextId⟩)
            (machine.receiving object)) ∧
      (object.ofClass.method? name.lexeme = none → event.outcome =
        .error (.runtime ⟨.undefinedProperty name.lexeme, name.line⟩) machine)) ∧
    (machineOf event.outcome).fields = machine.fields
  /-- An assignment changes its own field of its own instance, and nothing else at all. -/
  assigned : ∀ object name value machine, event = .assigned object name value machine →
    ∃ fields, event.outcome = .ok value { machine with fields := fields } ∧
      ∀ identity key, Machine.field? { machine with fields := fields } identity key =
        if object.identity = identity ∧ name.lexeme = key then some value
        else machine.field? identity key

/-- What happens behind events that record its machine is lawful. -/
theorem FieldEvent.Happens.lawful {before : List FieldEvent} {event : FieldEvent}
    (happens : event.Happens before) : event.Lawful before := by
  cases event with
  | made object machine =>
      obtain ⟨identity, cls⟩ := object
      obtain ⟨records, new⟩ := happens
      have all : instancesOf (before ++ [.made ⟨identity, cls⟩ machine]) =
          instancesOf before ++ [⟨identity, cls⟩] := instancesOf_append ..
      refine ⟨records.field, ?_, ?_, ?_, fun _ _ _ same => (by cases same),
        fun _ _ _ _ same => (by cases same)⟩
      · rw [all]
        exact List.mem_append_right _ List.mem_cons_self
      · have identities := (records.newInstance cls machine).identities
        rw [← show identity = machine.fields.size from new] at identities
        rw [identities]
        exact List.nodup_range
      · intro object machine same
        cases same
        rw [show identity = machine.fields.size from new]
        exact ⟨⟨_, rfl⟩, records.lastAssigned_size⟩
  | read object name machine =>
      obtain ⟨records, known⟩ := happens
      have all : instancesOf (before ++ [.read object name machine]) = instancesOf before :=
        (instancesOf_append ..).trans (List.append_nil _)
      refine ⟨records.field, all ▸ known, ?_, fun _ _ same => (by cases same), ?_,
        fun _ _ _ _ same => (by cases same)⟩
      · rw [all, records.identities]
        exact List.nodup_range
      · intro object name machine same
        cases same
        refine ⟨fun value last => property_of_field ((records.field ..).trans last), fun none => ?_,
          fields_property object name machine⟩
        have noField := (records.field object.identity name.lexeme).trans none
        exact ⟨fun method => property_of_method noField, property_undefined noField⟩
  | assigned object name value machine =>
      obtain ⟨records, known⟩ := happens
      have all : instancesOf (before ++ [.assigned object name value machine]) =
          instancesOf before :=
        (instancesOf_append ..).trans (List.append_nil _)
      refine ⟨records.field, all ▸ known, ?_, fun _ _ same => (by cases same),
        fun _ _ _ same => (by cases same), ?_⟩
      · rw [all, records.identities]
        exact List.nodup_range
      · intro object name value machine same
        cases same
        exact ⟨_, rfl, Machine.Records.field?_setField machine (records.identity_lt known) _ _⟩

/-! ## Sessions -/

/-- The value that a read property was assigned last, where it hides a method. -/
def FieldEvent.hidingMethod? (before : List FieldEvent) : FieldEvent → Option Value
  | .read object name _ =>
    if (object.ofClass.method? name.lexeme).isSome then
      lastAssigned before object.identity name.lexeme
    else none
  | _ => none

namespace Session

/-- Whatever is entered, what happens to the fields is lawful, each time: a field holds what
was assigned to it last.  What happens to them at any moment to which the session comes has
its place in the trace, nothing else has, and it is what comes of this moment. -/
theorem fields_hold_last_assigned (limits : ConsoleLimits) (clock : Clock) (steps : List Step) :
    (∀ before event after, (start limits clock).trace steps = before ++ event :: after →
      event.Lawful before) ∧
    (∀ event, event ∈ (start limits clock).trace steps ↔ (start limits clock).Brings steps event) ∧
    ∀ distances moment event, Moment.Brings distances moment event →
      moment.outcome? distances = some event.outcome := by
  have initial : (start limits clock).machine.Reached [] := Machine.reached_initial _ _
  have reached := reached_trace initial steps
  exact ⟨fun before event after same => (reached.chronicle before event after same).lawful,
    fun _ => mem_trace_iff, fun _ _ _ => Moment.Brings.outcome⟩

/-- A method is read, then the field of its name is assigned, and the instance is reached by
another name. -/
def hiddenMethod : List Step :=
  [.enter 100 .script "class Box\x7bme()\x7breturn this;\x7d\x7d var a=Box(); var b=a; b.me; a.me=1; a.me=\"two\";",
    .enter 100 .line "b.me;"]

theorem hiddenMethod_reads : ∃ before object name machine after value,
    start.trace hiddenMethod = before ++ .read object name machine :: after ∧
      (object.ofClass.method? name.lexeme).isSome ∧ value.display = "two" ∧
      lastAssigned before object.identity name.lexeme = some value ∧
      property object name machine = .ok value machine := by
  have shown : ((start.trace hiddenMethod)[4]?.bind
      (FieldEvent.hidingMethod? ((start.trace hiddenMethod).take 4))).map ValueOf.display =
        some "two" := by
    decide +kernel
  obtain ⟨value, hidden, display⟩ := Option.map_eq_some_iff.1 shown
  obtain ⟨event, found, hides⟩ := Option.bind_eq_some_iff.1 hidden
  obtain ⟨inside, same⟩ := List.getElem?_eq_some_iff.1 found
  have place : start.trace hiddenMethod = (start.trace hiddenMethod).take 4 ++
      event :: (start.trace hiddenMethod).drop 5 := by
    rw [← same, ← List.drop_eq_getElem_cons inside, List.take_append_drop]
  unfold FieldEvent.hidingMethod? at hides
  split at hides
  · next object name machine =>
      split at hides
      · next method =>
          have lawful := (fields_hold_last_assigned {} (.ticking 0) hiddenMethod).1 _ _ _ place
          exact ⟨_, object, name, machine, _, value, place, method, display, hides,
            (lawful.read _ _ _ rfl).1 value hides⟩
      · cases hides
  · cases hides

end Session

end Lox
