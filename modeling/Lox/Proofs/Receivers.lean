/-
# What `this` is bound to stays

The name `this` is a keyword, so no text can declare it, assign it or make it a
parameter.  The only thing that binds it is reading a method from an instance, which
makes a frame of its own for it.  Hence no step of a run changes what a frame binds
`this` to, nor where the frame is enclosed (`Moment.Does.untouched`), and no run does,
from any moment of it to its end.

A session recalls all moments to which it has come, in any of its texts
(`Session.Recalls`).  What frames bound `this` to at such a moment they still bind it
to when the session is over (`Session.Recalls.recalled`).
-/

import Lox.Proofs.Agreement.Session
import Lox.Proofs.Steps

namespace Lox

open Execution

namespace FrameStore

variable {α : Type}

/-- Every frame of the earlier store is in the later one, enclosed by the same frame,
and what it binds a name to is the same. -/
structure Untouched (name : String) (earlier later : FrameStore α) : Prop where
  size : earlier.nextId ≤ later.nextId
  enclosing : ∀ id < earlier.nextId, later.enclosing? id = earlier.enclosing? id
  bound : ∀ id < earlier.nextId, later.bound? id name = earlier.bound? id name

namespace Untouched

variable {name : String} {first second third : FrameStore α}

theorem refl (store : FrameStore α) : Untouched name store store :=
  ⟨Nat.le_refl _, fun _ _ => rfl, fun _ _ => rfl⟩

theorem trans (before : Untouched name first second) (behind : Untouched name second third) :
    Untouched name first third where
  size := Nat.le_trans before.size behind.size
  enclosing id inside :=
    (behind.enclosing id (Nat.lt_of_lt_of_le inside before.size)).trans (before.enclosing id inside)
  bound id inside :=
    (behind.bound id (Nat.lt_of_lt_of_le inside before.size)).trans (before.bound id inside)

/-- A new frame does not touch the frames that are there. -/
theorem push (store : FrameStore α) (enclosing : Option FrameId) (bindings : Bindings α) :
    Untouched name store (store.push enclosing bindings) where
  size := by simp
  enclosing id inside := by rw [enclosing?_push, if_neg (Nat.ne_of_lt inside)]
  bound id inside := by rw [bound?_push, if_neg (Nat.ne_of_lt inside)]

/-- Another name may be bound anywhere. -/
theorem define (store : FrameStore α) (id : FrameId) {other : String} (different : name ≠ other)
    (value : α) : Untouched name store (store.define id other value) where
  size := Nat.le_of_eq (nextId_define ..).symm
  enclosing _ _ := enclosing?_define ..
  bound frame _ := by
    rw [bound?, frame?_define, bound?]
    cases store.frame? frame with
    | none => rfl
    | some found =>
        simp only [Option.map_some, Option.bind_some]
        split
        · rw [Bindings.getElem?_insert, if_neg different]
        · rfl

end Untouched

end FrameStore

/-- A name that a program chose is not `this`. -/
theorem Token.Names.ne_this {name : Token} (named : name.Names Token.WellSpelled) :
    "this" ≠ name.lexeme := by
  intro same
  have reserved := named.1.ofSpelling?_lexeme named.2
  rw [← same] at reserved
  cases reserved

/-- What an assignment of another name does not touch. -/
theorem untouched_assign {key : String} {distance : Option Nat} {name : Token} {value : Value}
    {machine later : Machine} (different : key ≠ name.lexeme)
    (assigned : assign distance name value machine = .ok () later) :
    FrameStore.Untouched key machine.frames later.frames := by
  have whole : Ensures (assign distance name value) machine
      (fun _ later => FrameStore.Untouched key machine.frames later.frames) fun _ _ => True := by
    apply ensures_bind
    · rintro _ _ ⟨⟩
      dsimp only
      split
      · exact .define _ _ different value
      · trivial
    · rintro _ _ ⟨⟩
  exact whole.finished assigned

/-- To read a property makes at most a new frame. -/
theorem untouched_property {key : String} {object : Instance} {name : Token} {value : Value}
    {machine later : Machine} (read : property object name machine = .ok value later) :
    FrameStore.Untouched key machine.frames later.frames := by
  have whole : Ensures (property object name) machine
      (fun _ later => FrameStore.Untouched key machine.frames later.frames) fun _ _ => True := by
    apply ensures_bind
    · rintro _ _ ⟨⟩
      split
      · exact .refl _
      · split
        · exact .push _ _ _
        · trivial
    · rintro _ _ ⟨⟩
  exact whole.finished read

theorem frames_print (value : Value) (machine : Machine) :
    (machineOf (print value machine)).frames = machine.frames := by
  rw [print, get_bind_apply]
  rcases machine.console.print value.display with ⟨fault, console⟩
  cases fault <;> rfl

variable {texts : List Text} {distances : Distances}

/-- No step of a good moment touches what a frame binds `this` to. -/
theorem Moment.Does.untouched {moment : Moment} {earlier later : Machine}
    (does : moment.Does distances earlier later) (good : moment.Good texts) :
    FrameStore.Untouched "this" earlier.frames later.frames := by
  obtain ⟨_, ready⟩ := good
  cases does with
  | assign _ assigned =>
      obtain ⟨_, visited, _⟩ := ready
      exact untouched_assign visited.shaped.1.ne_this assigned
  | property _ read => exact untouched_property read
  | setField _ _ stored =>
      cases stored
      exact .refl _
  | enter | enterBlock => exact .push _ _ _
  | leave | leaveBlock => exact .refl _
  | clock read =>
      cases read
      exact .refl _
  | newInstance made =>
      cases made
      exact .refl _
  | print =>
      rw [frames_print]
      exact .refl _
  | declare defined =>
      obtain ⟨_, visited, _⟩ := ready
      have named := visited.shaped
      cases defined
      exact .define _ _ named.ne_this _
  | initial _ defined =>
      obtain ⟨_, visited, _⟩ := ready
      cases defined
      exact .define _ _ visited.shaped.1.ne_this _
  | @function _ _ _ _ declaration _ made defined =>
      obtain ⟨_, visited, _⟩ := ready
      have named := visited.shaped
      cases declaration
      cases made
      cases defined
      exact .define _ _ named.1.ne_this _
  | classValue made defined =>
      obtain ⟨_, visited, _⟩ := ready
      cases made
      cases defined
      exact .define _ _ visited.shaped.1.ne_this _

/-- Nor do the steps of all moments that it reaches. -/
theorem Moment.Flows.untouched {moment : Moment} {earlier later : Machine}
    (flows : moment.Flows distances earlier later) (good : moment.Good texts) :
    FrameStore.Untouched "this" earlier.frames later.frames :=
  flows.preserves (fun first second => FrameStore.Untouched "this" first.frames second.frames)
    (fun _ => .refl _) (fun _ _ _ => .trans)
    fun _ reaches _ _ does => does.untouched (good.reach reaches)

/-! ## Whole texts -/

section Programs

variable {allowance : Nat} {analysis : Analysis} {m : Machine}

theorem untouched_interpret {program : List (Stmt Reference)}
    (visited : Visited texts analysis (.stmts program)) (top : analysis.scopes = [])
    (sound : m.Sound texts) (current : m.current = Machine.globals) :
    FrameStore.Untouched "this" m.frames
      (machineOf (interpret distances allowance program m)).frames := by
  induction program generalizing analysis m with
  | nil => exact .refl _
  | cons stmt rest ih =>
      have agrees : Agrees m.frames m.current analysis.scopes := top ▸ current
      have good : Moment.Good texts ⟨allowance, .execute stmt, m⟩ :=
        ⟨sound, analysis, visited.call .firstStmt, agrees⟩
      refine machineOf_bind (fun later => FrameStore.Untouched "this" m.frames later.frames)
        ((Moment.flows ⟨allowance, .execute stmt, m⟩).untouched good) fun _ m' ran before => ?_
      have same := ((stays_execute allowance stmt m).finished ran).current
      have top := Analysis.scopes_top (visited.call .firstStmt) top
      exact before.trans (ih (visited.call .otherStmts) top
        ((soundly_execute allowance (visited.call .firstStmt) sound agrees).finished ran).1
        (same.trans current))

/-- Behind a statement of a program, the rest of the program does not touch it either. -/
theorem Starts.untouched {program : List (Stmt Reference)} {moment : Moment}
    (starts : Starts distances allowance program m moment)
    (visited : Visited texts analysis (.stmts program)) (top : analysis.scopes = [])
    (sound : m.Sound texts) (current : m.current = Machine.globals) :
    FrameStore.Untouched "this" (moment.after distances).frames
      (machineOf (interpret distances allowance program m)).frames := by
  induction starts generalizing analysis with
  | @first stmt rest m =>
      have agrees : Agrees m.frames m.current analysis.scopes := top ▸ current
      refine machineOf_bind (fun later => FrameStore.Untouched "this" _ later.frames) (.refl _)
        fun _ m' ran before => before.trans ?_
      have same := ((stays_execute allowance stmt m).finished ran).current
      exact untouched_interpret (visited.call .otherStmts)
        (Analysis.scopes_top (visited.call .firstStmt) top)
        ((soundly_execute allowance (visited.call .firstStmt) sound agrees).finished ran).1
        (same.trans current)
  | @later stmt rest m m' _ _ ran _ ih =>
      have agrees : Agrees m.frames m.current analysis.scopes := top ▸ current
      have same := ((stays_execute allowance stmt m).finished ran).current
      rw [interpret, bind_of_ok ran]
      exact ih (visited.call .otherStmts) (Analysis.scopes_top (visited.call .firstStmt) top)
        ((soundly_execute allowance (visited.call .firstStmt) sound agrees).finished ran).1
        (same.trans current)

/-- What is no single expression on a line is run statement by statement. -/
theorem Entry.computation_eq_interpret {entry : Entry} {program : List (Stmt Reference)}
    (other : ∀ expr, entry = .line → program = [.expression expr] → False) :
    entry.computation distances allowance program = interpret distances allowance program := by
  unfold Entry.computation
  split
  · exact (other _ rfl rfl).elim
  · rfl

theorem Entry.Starts.untouched {entry : Entry} {program : List (Stmt Reference)}
    {moment : Moment} (starts : entry.Starts distances allowance program m moment)
    (visited : Visited texts analysis (.stmts program)) (top : analysis.scopes = [])
    (sound : m.Sound texts) (current : m.current = Machine.globals) :
    FrameStore.Untouched "this" (moment.after distances).frames
      (machineOf (entry.computation distances allowance program m)).frames := by
  unfold Entry.Starts at starts
  split at starts
  · rw [starts]
    refine machineOf_bind (fun later => FrameStore.Untouched "this" _ later.frames) (.refl _)
      fun value m' _ before => ?_
    rw [frames_print]
    exact before
  · next other =>
      rw [computation_eq_interpret other]
      exact Lox.Starts.untouched starts visited top sound current

theorem untouched_computation {entry : Entry} {program : List (Stmt Reference)}
    (visited : Visited texts analysis (.stmts program)) (top : analysis.scopes = [])
    (sound : m.Sound texts) (current : m.current = Machine.globals) :
    FrameStore.Untouched "this" m.frames
      (machineOf (entry.computation distances allowance program m)).frames := by
  unfold Entry.computation
  split
  · next expr =>
      have good : Moment.Good texts ⟨allowance, .evaluate expr, m⟩ :=
        ⟨sound, analysis, (visited.call .firstStmt).call .expression, top ▸ current⟩
      refine machineOf_bind (fun later => FrameStore.Untouched "this" m.frames later.frames)
        ((Moment.flows ⟨allowance, .evaluate expr, m⟩).untouched good) fun value m' _ before => ?_
      rw [frames_print]
      exact before
  · exact untouched_interpret visited top sound current

end Programs

/-! ## Sessions -/

namespace Session

theorem machine_perform {α : Type} (session : Session) (computation : Execution α) :
    (session.perform computation).1.machine = machineOf (computation session.machine) := by
  rw [perform, EStateM.run]
  cases computation session.machine <;> rfl

variable {session : Session} {entry : Entry} {source : String} {text : Text}

/-- An entered text does not touch what frames bind `this` to, whatever becomes of
it. -/
theorem History.untouched_enter (history : session.History texts) (allowance : Nat)
    (entry : Entry) (source : String) : FrameStore.Untouched "this" session.machine.frames
      (session.enter allowance entry source).1.machine.frames := by
  cases accepted : session.accepted? entry source with
  | none =>
      rw [(enter_rejected allowance accepted).2]
      exact .refl _
  | some text =>
      have known : session.machine.Sound (text :: texts) :=
        history.sound.known fun _ => List.mem_cons_of_mem text
      rw [enter_accepted allowance accepted, machine_perform]
      exact untouched_computation ((history.knows.accept accepted).visited List.mem_cons_self) rfl
        known history.current

/-- A session has come to a moment in one of its texts, where these distances were
known.  The texts are those that it has accepted. -/
inductive Recalls : Session → List Text → Distances → Moment → Prop where
  | now {session : Session} {texts : List Text} {entry : Entry} {source : String} {text : Text}
      {allowance : Nat} {moment : Moment} (history : session.History texts)
      (accepted : session.accepted? entry source = some text)
      (comes : session.ComesTo allowance entry source moment) :
      Recalls (session.enter allowance entry source).1 (text :: texts)
        (session.analysed entry source).distances moment
  | enter {session : Session} {texts : List Text} {distances : Distances} {moment : Moment}
      (recalls : Recalls session texts distances moment) (allowance : Nat) (entry : Entry)
      (source : String) : Recalls (session.enter allowance entry source).1
        ((session.accepted? entry source).toList ++ texts) distances moment
  | withClock {session : Session} {texts : List Text} {distances : Distances} {moment : Moment}
      (recalls : Recalls session texts distances moment) (clock : Clock) :
      Recalls (session.withClock clock) texts distances moment

theorem Recalls.history {moment : Moment} (recalls : session.Recalls texts distances moment) :
    session.History texts := by
  induction recalls with
  | @now _ _ entry source _ allowance _ history accepted _ =>
      have next := history.enter allowance entry source
      rwa [accepted] at next
  | enter _ allowance entry source ih => exact ih.enter allowance entry source
  | withClock _ clock ih => exact ih.withClock clock

/-- What a moment asks for is recalled with it. -/
theorem Recalls.ask {first second : Moment} (recalls : session.Recalls texts distances first)
    (asks : Moment.Asks distances first second) : session.Recalls texts distances second := by
  induction recalls with
  | now history accepted comes =>
      obtain ⟨top, starts, reaches⟩ := comes
      exact .now history accepted ⟨top, starts, reaches.tail asks⟩
  | enter _ allowance entry source ih => exact (ih asks).enter allowance entry source
  | withClock _ clock ih => exact (ih asks).withClock clock

/-- A recalled moment was good, and the distances were those of the texts known then.
What frames bound `this` to when it started, and when it ended, they still do. -/
structure Recalled (session : Session) (texts : List Text) (distances : Distances)
    (moment : Moment) (known : List Text) : Prop where
  subset : known ⊆ texts
  good : moment.Good known
  resolved : Resolved distances known
  start : FrameStore.Untouched "this" moment.machine.frames session.machine.frames
  after : FrameStore.Untouched "this" (moment.after distances).frames session.machine.frames

theorem Recalls.recalled {moment : Moment} (recalls : session.Recalls texts distances moment) :
    ∃ known, session.Recalled texts distances moment known := by
  induction recalls with
  | @now session texts entry source text allowance moment history accepted comes =>
      have good := history.good accepted comes
      have knows := history.knows.accept accepted
      have sound : session.machine.Sound (text :: texts) :=
        history.sound.known fun _ => List.mem_cons_of_mem text
      obtain ⟨first, starts, reaches⟩ := comes
      have visited := knows.visited List.mem_cons_self
      rw [enter_accepted allowance accepted]
      obtain ⟨_, rfl⟩ := accepted?_eq_some.1 accepted
      have top := starts.good visited rfl sound history.current
      have behind : FrameStore.Untouched "this"
          (first.after (session.analysed entry source).distances).frames
          ((session.analysed entry source).perform
            (entry.computation (session.analysed entry source).distances allowance
              (session.program entry source))).1.machine.frames := by
        rw [machine_perform]
        exact starts.untouched visited rfl sound history.current
      exact ⟨_, List.Subset.refl _, good, knows.kept,
        (reaches.flows.1.untouched top).trans behind, (reaches.flows.2.untouched top).trans behind⟩
  | enter recalls allowance entry source ih =>
      obtain ⟨known, subset, good, resolved, start, after⟩ := ih
      have more := recalls.history.untouched_enter allowance entry source
      exact ⟨known, List.subset_append_of_subset_right _ subset, good, resolved, start.trans more,
        after.trans more⟩
  | withClock _ clock ih =>
      obtain ⟨known, subset, good, resolved, start, after⟩ := ih
      exact ⟨known, subset, good, resolved, start, after⟩

end Session

end Lox
