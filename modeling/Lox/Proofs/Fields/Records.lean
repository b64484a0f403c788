/-
# The fields are what the trace tells

A trace is a record of the machine behind it (`Machine.Records`): the instances are those
that the trace has made, one for each identity, and a field holds what was assigned to it
last.  Every instance that a variable or a field holds is one of these, so that nothing
is ever assigned to an instance that is not there.

This is so at every point of a trace, from where a session starts
(`Session.reached_trace`).  A computation tells its trace (`Execution.Tells`) if it leads
from one recorded machine to the next.
-/

import Lox.Proofs.Agreement.Run
import Lox.Proofs.Fields.Trace
import Lox.Proofs.Steps

namespace Lox

/-! ## What a trace records -/

namespace FieldEvent

/-- The instance that was made. -/
def made? : FieldEvent → Option Instance
  | .made object _ => some object
  | _ => none

/-- The value that was assigned to a field. -/
def assigned? (identity : Nat) (name : String) : FieldEvent → Option Value
  | .assigned object token value _ =>
    if object.identity = identity ∧ token.lexeme = name then some value else none
  | _ => none

end FieldEvent

/-- The instances that a trace has made. -/
def instancesOf (events : List FieldEvent) : List Instance :=
  events.filterMap FieldEvent.made?

/-- What was assigned to a field last. -/
def lastAssigned (events : List FieldEvent) (identity : Nat) (name : String) : Option Value :=
  events.reverse.findSome? (·.assigned? identity name)

theorem instancesOf_append (first second : List FieldEvent) :
    instancesOf (first ++ second) = instancesOf first ++ instancesOf second :=
  List.filterMap_append

theorem lastAssigned_concat (events : List FieldEvent) (event : FieldEvent) (identity : Nat)
    (name : String) : lastAssigned (events ++ [event]) identity name =
      (event.assigned? identity name).or (lastAssigned events identity name) := by
  rw [lastAssigned, List.reverse_concat, List.findSome?_cons, lastAssigned]
  cases event.assigned? identity name <;> rfl

/-- What a field of the instance with an identity holds. -/
def Machine.field? (machine : Machine) (identity : Nat) (name : String) : Option Value :=
  machine.fields[identity]?.bind (·[name]?)

/-- If a value is an instance, then it is one of these. -/
def Value.Among (objects : List Instance) : Value → Prop
  | .instanceValue object => object ∈ objects
  | _ => True

/-- The instances and fields of a machine are those that a trace tells, and there are no
others in its frames. -/
structure Machine.Records (machine : Machine) (events : List FieldEvent) : Prop where
  size : machine.fields.size = (instancesOf events).length
  identity : ∀ place (object : Instance), (instancesOf events)[place]? = some object →
    object.identity = place
  field : ∀ identity name, machine.field? identity name = lastAssigned events identity name
  bound : ∀ id name value, machine.frames.bound? id name = some value →
    Value.Among (instancesOf events) value
  held : ∀ identity name value, machine.field? identity name = some value →
    Value.Among (instancesOf events) value

/-- An event happens behind others: they record its machine and know its instance. -/
def FieldEvent.Happens (before : List FieldEvent) : FieldEvent → Prop
  | .made object machine => machine.Records before ∧ object.identity = machine.fields.size
  | .read object _ machine => machine.Records before ∧ object ∈ instancesOf before
  | .assigned object _ _ machine => machine.Records before ∧ object ∈ instancesOf before

/-- Every event of a trace happens behind those in front of it. -/
def Chronicle (events : List FieldEvent) : Prop :=
  ∀ before event after, events = before ++ event :: after → event.Happens before

/-- A machine to which a trace has led. -/
structure Machine.Reached (machine : Machine) (events : List FieldEvent) : Prop where
  chronicle : Chronicle events
  records : machine.Records events

theorem Chronicle.concat {events : List FieldEvent} (chronicle : Chronicle events)
    {event : FieldEvent} (happens : event.Happens events) : Chronicle (events ++ [event]) := by
  intro before other after same
  rcases List.eq_nil_or_concat' after with rfl | ⟨more, last, rfl⟩
  · obtain ⟨rfl, ⟨⟩⟩ := List.append_inj' same rfl
    exact happens
  · rw [← List.cons_append, ← List.append_assoc] at same
    obtain ⟨rfl, ⟨⟩⟩ := List.append_inj' same rfl
    exact chronicle before other more rfl

theorem Value.Among.mono {objects : List Instance} {value : Value}
    (among : Value.Among objects value) (more : List Instance) :
    Value.Among (objects ++ more) value := by
  cases value with
  | instanceValue object => exact List.mem_append_left more among
  | _ => trivial

namespace Machine.Records

variable {machine later : Machine} {events : List FieldEvent}

/-- The instance of an identity is known by it. -/
theorem getElem? (records : machine.Records events) {object : Instance}
    (known : object ∈ instancesOf events) :
    (instancesOf events)[object.identity]? = some object := by
  obtain ⟨place, found⟩ := List.getElem?_of_mem known
  rw [records.identity place object found, found]

theorem identity_lt (records : machine.Records events) {object : Instance}
    (known : object ∈ instancesOf events) : object.identity < machine.fields.size := by
  rw [records.size]
  exact (List.getElem?_eq_some_iff.1 (records.getElem? known)).1

/-- What is done to the frames does not matter, as long as no other instance is bound. -/
theorem frames (records : machine.Records events) (fields : later.fields = machine.fields)
    (bound : ∀ id name value, later.frames.bound? id name = some value →
      machine.frames.bound? id name = some value ∨ Value.Among (instancesOf events) value) :
    later.Records events where
  size := fields ▸ records.size
  identity := records.identity
  field identity name := by
    rw [Machine.field?, fields]
    exact records.field identity name
  bound frame name value found :=
    (bound frame name value found).elim (records.bound frame name value) fun among => among
  held identity name value found := by
    rw [Machine.field?, fields] at found
    exact records.held identity name value found

theorem congr (records : machine.Records events) (frames : later.frames = machine.frames)
    (fields : later.fields = machine.fields) : later.Records events :=
  records.frames fields fun _ _ _ found => .inl (frames ▸ found)

/-- A new frame binds known instances. -/
theorem push (records : machine.Records events) (enclosing : FrameId) {bindings : Bindings Value}
    (good : ∀ (name : String) value, bindings[name]? = some value →
      Value.Among (instancesOf events) value) (current : FrameId) :
    Records { machine with
      frames := machine.frames.push (some enclosing) bindings, current := current } events := by
  refine records.frames rfl fun id name value found => ?_
  rw [FrameStore.bound?_push] at found
  split at found
  · exact .inr (good name value found)
  · exact .inl found

theorem define (records : machine.Records events) (id : FrameId) (name : String) {value : Value}
    (good : Value.Among (instancesOf events) value) :
    Records { machine with frames := machine.frames.define id name value } events := by
  refine records.frames rfl fun other key held found => ?_
  rw [FrameStore.bound?, FrameStore.frame?_define] at found
  obtain ⟨frame, kept, same⟩ := Option.bind_eq_some_iff.1 found
  obtain ⟨old, before, rfl⟩ := Option.map_eq_some_iff.1 kept
  split at same
  · rw [Bindings.getElem?_insert] at same
    split at same
    · cases same
      exact .inr good
    · exact .inl (Option.bind_eq_some_iff.2 ⟨old, before, same⟩)
  · exact .inl (Option.bind_eq_some_iff.2 ⟨old, before, same⟩)

/-- An event that makes no instance and assigns nothing. -/
theorem silent (records : machine.Records events) {event : FieldEvent}
    (noInstance : event.made? = none)
    (nothing : ∀ identity name, event.assigned? identity name = none) :
    machine.Records (events ++ [event]) := by
  have same : instancesOf (events ++ [event]) = instancesOf events := by
    rw [instancesOf_append, instancesOf, instancesOf, List.filterMap_cons_none noInstance,
      List.filterMap_nil, List.append_nil]
  refine ⟨same ▸ records.size, same ▸ records.identity, fun identity name => ?_,
    same ▸ records.bound, same ▸ records.held⟩
  rw [lastAssigned_concat, nothing, Option.none_or]
  exact records.field identity name

/-- An instance that is made has a new identity, and no fields. -/
theorem newInstance (records : machine.Records events) (cls : Class) (on : Machine) :
    Records { machine with fields := machine.fields.push {} }
      (events ++ [.made ⟨machine.fields.size, cls⟩ on]) := by
  have known : instancesOf (events ++ [.made ⟨machine.fields.size, cls⟩ on]) =
      instancesOf events ++ [⟨machine.fields.size, cls⟩] := instancesOf_append ..
  have kept (identity : Nat) (name : String) :
      Machine.field? { machine with fields := machine.fields.push {} } identity name =
        machine.field? identity name := by
    rw [Machine.field?, Machine.field?, Array.getElem?_push]
    split
    · next last =>
        have none : machine.fields[identity]? = none := by
          rw [last]
          exact Array.getElem?_size
        rw [none]
        simp
    · rfl
  refine ⟨?_, fun place object found => ?_, fun identity name => ?_, fun id name value found => ?_,
    fun identity name value found => ?_⟩
  · rw [known, Array.size_push, List.length_append, records.size]
    rfl
  · rw [known] at found
    rcases Nat.lt_or_ge place (instancesOf events).length with inside | beyond
    · rw [List.getElem?_append_left inside] at found
      exact records.identity place object found
    · rw [List.getElem?_append_right beyond, List.getElem?_singleton] at found
      split at found
      · next last =>
          cases found
          have size := records.size
          show machine.fields.size = place
          omega
      · cases found
  · rw [kept, lastAssigned_concat, records.field]
    rfl
  · rw [known]
    exact (records.bound id name value found).mono _
  · rw [kept] at found
    rw [known]
    exact (records.held identity name value found).mono _

theorem field?_setField (machine : Machine) {object : Instance}
    (inside : object.identity < machine.fields.size) (name : String) (value : Value)
    (identity : Nat) (key : String) :
    Machine.field? { machine with
        fields := machine.fields.modify object.identity (·.insert name value) } identity key =
      if object.identity = identity ∧ name = key then some value
      else machine.field? identity key := by
  rw [Machine.field?, Machine.field?, Bindings.getElem?_modify_insert]
  exact if_congr ⟨fun ⟨own, _, same⟩ => ⟨own, same.symm⟩,
    fun ⟨own, same⟩ => ⟨own, own ▸ inside, same.symm⟩⟩ rfl rfl

/-- An assignment is the last one of its field, and changes no other field. -/
theorem setField (records : machine.Records events) {object : Instance}
    (known : object ∈ instancesOf events) (name : Token) {value : Value}
    (good : Value.Among (instancesOf events) value) (on : Machine) :
    Records { machine with
        fields := machine.fields.modify object.identity (·.insert name.lexeme value) }
      (events ++ [.assigned object name value on]) := by
  have same : instancesOf (events ++ [.assigned object name value on]) = instancesOf events := by
    rw [instancesOf_append]
    exact List.append_nil _
  have fields := field?_setField machine (records.identity_lt known) name.lexeme value
  refine ⟨?_, same ▸ records.identity, fun identity key => ?_, same ▸ records.bound,
    fun identity key held found => ?_⟩
  · rw [same, Array.size_modify, records.size]
  · rw [fields, lastAssigned_concat, FieldEvent.assigned?, records.field]
    split <;> rfl
  · rw [same]
    rw [fields] at found
    split at found
    · cases found
      exact good
    · exact records.held identity key held found

end Machine.Records

/-! ## Computations -/

namespace Execution

variable {α β : Type}

/-- A computation tells a trace: behind the events before it and those of the trace, the
machine that it leaves is reached, and a value that it finishes with is as it should be. -/
structure Tells (prior : List FieldEvent) (machine : Machine) (computation : Execution α)
    (events : List FieldEvent) (holds : List Instance → α → Prop) : Prop where
  reached : (machineOf (computation machine)).Reached (prior ++ events)
  value : ∀ value later, computation machine = .ok value later →
    holds (instancesOf (prior ++ events)) value

/-- Nothing is said of a value. -/
abbrev Whatever : List Instance → α → Prop :=
  fun _ _ => True

variable {prior events : List FieldEvent} {machine : Machine} {computation : Execution α}
  {holds : List Instance → α → Prop} {holds' : List Instance → β → Prop}

/-- A computation behind another one goes on where that one is told to end. -/
theorem Tells.bind {next : α → Execution β} {more : α → Machine → List FieldEvent}
    (before : Tells prior machine computation events holds)
    (after : ∀ value later, computation machine = .ok value later →
      later.Reached (prior ++ events) → holds (instancesOf (prior ++ events)) value →
        Tells (prior ++ events) later (next value) (more value later) holds') :
    Tells prior machine (computation >>= next) (events ++ behind (computation machine) more)
      holds' := by
  obtain ⟨reached, known⟩ := before
  cases ran : computation machine with
  | ok value later =>
      rw [ran] at reached
      have told := after value later ran reached (known value later ran)
      have same : (computation >>= next) machine = next value later := bind_of_ok ran
      rw [behind]
      refine ⟨?_, fun result last finished => ?_⟩
      · rw [same, ← List.append_assoc]
        exact told.reached
      · rw [same] at finished
        rw [← List.append_assoc]
        exact told.value result last finished
  | error interrupt later =>
      rw [ran] at reached
      have same : (computation >>= next) machine = .error interrupt later := by
        show EStateM.bind computation next machine = _
        rw [EStateM.bind, ran]
      rw [behind, List.append_nil]
      refine ⟨?_, fun result last finished => ?_⟩
      · rw [same]
        exact reached
      · rw [same] at finished
        cases finished

/-- Nothing happens to the fields in the computation behind. -/
theorem Tells.bind_silent {next : α → Execution β}
    (before : Tells prior machine computation events holds)
    (after : ∀ value later, computation machine = .ok value later →
      later.Reached (prior ++ events) → holds (instancesOf (prior ++ events)) value →
        Tells (prior ++ events) later (next value) [] holds') :
    Tells prior machine (computation >>= next) events holds' := by
  have whole : Tells prior machine (computation >>= next)
      (events ++ behind (computation machine) fun _ _ => []) holds' := before.bind after
  have none : behind (computation machine) (fun _ _ => ([] : List FieldEvent)) = [] := by
    cases computation machine <;> rfl
  rwa [none, List.append_nil] at whole

/-- Nothing happens to the fields in the computation in front. -/
theorem Tells.silent_bind {next : α → Execution β}
    (before : Tells prior machine computation [] holds)
    (after : ∀ value later, computation machine = .ok value later → later.Reached prior →
      holds (instancesOf prior) value → Tells prior later (next value) events holds')
    (finishes : ∃ value later, computation machine = .ok value later) :
    Tells prior machine (computation >>= next) events holds' := by
  obtain ⟨value, later, ran⟩ := finishes
  have whole : Tells prior machine (computation >>= next)
      ([] ++ behind (computation machine) fun _ _ => events) holds' :=
    before.bind fun value later ran reached known => by
      rw [List.append_nil] at reached known ⊢
      exact after value later ran reached known
  rwa [ran] at whole

/-- A computation that looks at the machine. -/
theorem Tells.get_bind {next : Machine → Execution α}
    (told : Tells prior machine (next machine) events holds) :
    Tells prior machine (get >>= next) events holds :=
  ⟨told.reached, told.value⟩

/-- A computation that does nothing to the fields, and binds known instances only. -/
theorem tells_silent (reached : machine.Reached prior)
    (ensures : Ensures computation machine
      (fun value later => later.Records prior ∧ holds (instancesOf prior) value)
      fun _ later => later.Records prior) : Tells prior machine computation [] holds := by
  constructor
  · rw [List.append_nil]
    refine ⟨reached.chronicle, ?_⟩
    cases ran : computation machine with
    | ok value later => exact (ensures.finished ran).1
    | error interrupt later => exact ensures.stopped ran
  · rw [List.append_nil]
    exact fun value later ran => (ensures.finished ran).2

end Execution

end Lox
