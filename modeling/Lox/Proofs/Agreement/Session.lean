/-
# Frames and scopes agree in every session

Whatever texts a session has run before, on its machine every value is sound
(`Session.History.sound`).  So frames and scopes agree at every moment of the
next accepted text, and no variable that has a distance is ever undefined, but
for one that is assigned inside its own initializer
(`Session.History.frames_agree_with_scopes`).
-/

import Lox.Proofs.Agreement.Reached
import Lox.Proofs.Raising
import Lox.Proofs.Session
import Lox.Proofs.Visits.Unique

namespace Lox

open Execution Analysis

variable {texts : List Text} {distances : Distances}

/-- From the current frame outwards there is one frame for each scope, which
binds the names that the scope holds as initialized, and then the frame of the
globals, which is the last one. -/
structure Machine.Matches (machine : Machine) (scopes : List Scope) : Prop where
  globals : machine.frames.ancestor? machine.current scopes.length = some Machine.globals
  last : machine.frames.enclosing? Machine.globals = none
  binds : ∀ (distance : Nat) scope, scopes[distance]? = some scope →
    ∃ frame, machine.frames.ancestor? machine.current distance = some frame ∧
      frame ≠ Machine.globals ∧
        ∀ name : String, scope[name]? = some true → machine.frames.binds frame name = true

theorem Agrees.matches {machine : Machine} {scopes : List Scope}
    (agrees : Agrees machine.frames machine.current scopes) : machine.Matches scopes :=
  ⟨agrees.ancestor?_length, FrameStore.enclosing?_zero _, fun _ _ found => agrees.ancestor? found⟩

/-! ## More texts -/

section More

variable {more : List Text} (subset : texts ⊆ more)

include subset

/-- A sound value stays so when more texts are known. -/
theorem Value.Sound.known {frames : FrameStore Value} {value : Value}
    (sound : Value.Sound texts frames value) : Value.Sound more frames value := by
  have ofClass {cls : Class} (sound : Class.Sound texts frames cls) :
      Class.Sound more frames cls := by
    obtain ⟨analysis, outer, visited, others⟩ := sound
    exact ⟨analysis, outer, visited.mono subset, others⟩
  cases value with
  | function closure =>
      obtain ⟨analysis, kind, visited, agrees⟩ := sound
      exact ⟨analysis, kind, visited.mono subset, agrees⟩
  | classValue cls => exact ofClass sound
  | instanceValue object => exact ofClass sound
  | _ => trivial

theorem Machine.Sound.known {machine : Machine} (sound : machine.Sound texts) :
    machine.Sound more :=
  ⟨sound.started, fun id name value bound => (sound.bound id name value bound).known subset,
    fun identity bindings found name value held =>
      (sound.fields identity bindings found name value held).known subset⟩

end More

/-! ## Whole texts -/

/-- A program that is run among the globals leaves a sound machine. -/
theorem soundly_interpret (allowance : Nat) {program : List (Stmt Reference)}
    {analysis : Analysis} {m : Machine} (visited : Visited texts analysis (.stmts program))
    (top : analysis.scopes = []) (sound : m.Sound texts) (current : m.current = Machine.globals) :
    Soundly texts (interpret distances allowance program) m fun _ _ => True := by
  induction program generalizing analysis m with
  | nil => exact .pure sound trivial
  | cons first rest ih =>
      have agrees : Agrees m.frames m.current analysis.scopes := top ▸ current
      refine (soundly_execute allowance (visited.call .firstStmt) sound agrees).bind
        fun completion m' ran sound _ => ?_
      have same := ((stays_execute allowance first m).finished ran).current
      exact ih (visited.call .otherStmts) (scopes_top (visited.call .firstStmt) top) sound
        (same.trans current)

theorem soundly_computation (entry : Entry) (allowance : Nat) {program : List (Stmt Reference)}
    {analysis : Analysis} {m : Machine} (visited : Visited texts analysis (.stmts program))
    (top : analysis.scopes = []) (sound : m.Sound texts) (current : m.current = Machine.globals) :
    Soundly texts (entry.computation distances allowance program) m fun _ _ => True := by
  unfold Entry.computation
  split
  · have agrees : Agrees m.frames m.current analysis.scopes := top ▸ current
    exact (soundly_evaluate allowance ((visited.call .firstStmt).call .expression) sound
      agrees).bind fun value m' _ sound _ => soundly_print value sound
  · exact soundly_interpret allowance visited top sound current

/-- The machine of a new session binds nothing but the clock. -/
theorem Machine.sound_initial (console : Console) (clock : Clock) :
    (Machine.initial console clock).Sound [] := by
  have started : 0 < (({} : FrameStore Value).push none
      (({} : Bindings Value).insert "clock" (.native .clock))).nextId := by
    rw [FrameStore.nextId_push]
    exact Nat.succ_pos _
  refine ⟨started, fun id name value bound => ?_, fun identity bindings found => ?_⟩
  · rw [Machine.initial, FrameStore.bound?_push] at bound
    split at bound
    · rw [Bindings.getElem?_insert] at bound
      split at bound
      · cases bound
        trivial
      · simp at bound
    · simp [FrameStore.bound?, FrameStore.frame?] at bound
  · simp [Machine.initial] at found

namespace Session

variable {session : Session} {entry : Entry} {source : String} {text : Text}

/-- Between the texts of a session its machine is sound. -/
theorem History.sound {session : Session} (history : session.History texts) :
    session.machine.Sound texts := by
  induction history with
  | start limits clock => exact Machine.sound_initial _ clock
  | withClock _ clock ih => exact ih.congr rfl rfl
  | @enter session texts history allowance entry source sound =>
      cases accepted : session.accepted? entry source with
      | none =>
          obtain ⟨_, same⟩ := enter_rejected allowance accepted
          rw [same]
          exact sound
      | some text =>
          rw [enter_accepted allowance accepted]
          have knows := history.knows.accept accepted
          have known : session.machine.Sound (text :: texts) :=
            sound.known fun _ => List.mem_cons_of_mem text
          have visited := knows.visited List.mem_cons_self
          apply perform_ensures
          exact (soundly_computation entry allowance visited rfl known history.current).mono
            (fun _ _ => And.left) fun _ _ => id

end Session

/-! ## Every moment of a run -/

/-- Running a program from a machine, one of its statements is run. -/
inductive Starts (distances : Distances) (allowance : Nat) :
    List (Stmt Reference) → Machine → Moment → Prop where
  | first {stmt : Stmt Reference} {rest : List (Stmt Reference)} {m : Machine} :
      Starts distances allowance (stmt :: rest) m ⟨allowance, .execute stmt, m⟩
  | later {stmt : Stmt Reference} {rest : List (Stmt Reference)} {m m' : Machine}
      {completion : Completion} {moment : Moment}
      (ran : execute distances allowance stmt m = .ok completion m')
      (starts : Starts distances allowance rest m' moment) :
      Starts distances allowance (stmt :: rest) m moment

/-- Running an accepted text, a statement is run, or the expression of a line is
evaluated. -/
def Entry.Starts (entry : Entry) (distances : Distances) (allowance : Nat)
    (program : List (Stmt Reference)) (m : Machine) (moment : Moment) : Prop :=
  match entry, program with
  | .line, [.expression expr] => moment = ⟨allowance, .evaluate expr, m⟩
  | _, _ => Lox.Starts distances allowance program m moment

/-- While a session runs an accepted text, it comes to a moment. -/
def Session.ComesTo (session : Session) (allowance : Nat) (entry : Entry) (source : String)
    (moment : Moment) : Prop :=
  ∃ first, entry.Starts (session.analysed entry source).distances allowance
      (session.program entry source) session.machine first ∧
    first.Reaches (session.analysed entry source).distances moment

/-- A statement of a program that is run among the globals is a good moment. -/
theorem Starts.good {allowance : Nat} {program : List (Stmt Reference)} {analysis : Analysis}
    {m : Machine} {moment : Moment} (starts : Starts distances allowance program m moment)
    (visited : Visited texts analysis (.stmts program)) (top : analysis.scopes = [])
    (sound : m.Sound texts) (current : m.current = Machine.globals) : moment.Good texts := by
  induction starts generalizing analysis with
  | first => exact ⟨sound, analysis, visited.call .firstStmt, top ▸ current⟩
  | @later stmt _ m _ _ _ ran _ ih =>
      have agrees : Agrees m.frames m.current analysis.scopes := top ▸ current
      have same := ((stays_execute allowance stmt m).finished ran).current
      exact ih (visited.call .otherStmts) (scopes_top (visited.call .firstStmt) top)
        ((soundly_execute allowance (visited.call .firstStmt) sound agrees).finished ran).1
        (same.trans current)

theorem Entry.Starts.good {entry : Entry} {allowance : Nat} {program : List (Stmt Reference)}
    {analysis : Analysis} {m : Machine} {moment : Moment}
    (starts : entry.Starts distances allowance program m moment)
    (visited : Visited texts analysis (.stmts program)) (top : analysis.scopes = [])
    (sound : m.Sound texts) (current : m.current = Machine.globals) : moment.Good texts := by
  unfold Entry.Starts at starts
  split at starts
  · rw [starts]
    exact ⟨sound, analysis, (visited.call .firstStmt).call .expression, top ▸ current⟩
  · exact Lox.Starts.good starts visited top sound current

/-- What a good moment reaches is good. -/
theorem Moment.Good.reach {first second : Moment} (good : first.Good texts)
    (reaches : first.Reaches distances second) : second.Good texts := by
  induction reaches with
  | refl => exact good
  | tail _ asks ih => exact ih.ask asks

/-- What stops a program is raised at a moment to which it comes. -/
theorem starts_of_stopped (allowance : Nat) (program : List (Stmt Reference)) (m : Machine) :
    Ensures (interpret distances allowance program) m (fun _ _ => True) fun interrupt _ =>
      ∃ first later, Starts distances allowance program m first ∧
        first.Reaches distances later ∧ later.Raises distances interrupt := by
  induction program generalizing m with
  | nil => trivial
  | cons stmt rest ih =>
      apply ensures_bind
      · intro completion m' ran
        refine (ih m').mono (fun _ _ => id) fun interrupt _ ⟨first, later, starts, found⟩ => ?_
        exact ⟨first, later, .later ran starts, found⟩
      · intro interrupt m' ran
        obtain ⟨later, found⟩ := (explains_execute allowance stmt m).stopped ran
        exact ⟨_, later, .first, found⟩

/-- What stops an accepted text is raised at a moment to which it comes, or printing its
value has failed. -/
theorem starts_of_stopped_computation (entry : Entry) (allowance : Nat)
    (program : List (Stmt Reference)) (m : Machine) :
    Ensures (entry.computation distances allowance program) m (fun _ _ => True)
      fun interrupt _ => (∃ fault, interrupt = .output fault) ∨
        ∃ first later, entry.Starts distances allowance program m first ∧
          first.Reaches distances later ∧ later.Raises distances interrupt := by
  unfold Entry.computation
  split
  · next expr =>
      apply ensures_bind
      · intro value m' _
        cases ran : Execution.print value m' with
        | ok _ later => rw [Ensures, ran]; trivial
        | error interrupt later => rw [Ensures, ran]; exact .inl (exists_of_print ran)
      · intro interrupt m' ran
        obtain ⟨later, found⟩ := (explains_evaluate allowance expr m).stopped ran
        exact .inr ⟨_, later, rfl, found⟩
  · next other =>
      refine (starts_of_stopped allowance program m).mono (fun _ _ => id) fun interrupt _ => ?_
      rintro ⟨first, later, starts, found⟩
      refine .inr ⟨first, later, ?_, found⟩
      unfold Entry.Starts
      split
      · next expr => exact (other expr rfl rfl).elim
      · exact starts

/-- If an accepted text is stopped because a variable is undefined, it comes to a moment
that misses the variable. -/
theorem starts_of_undefined_computation (entry : Entry) (allowance : Nat)
    (program : List (Stmt Reference)) (m : Machine) :
    Ensures (entry.computation distances allowance program) m (fun _ _ => True)
      fun interrupt _ => ∀ name line, interrupt = .runtime ⟨.undefinedVariable name, line⟩ →
        ∃ first later reference token, entry.Starts distances allowance program m first ∧
          first.Reaches distances later ∧ later.Misses distances reference token ∧
            token.lexeme = name ∧ token.line = line := by
  refine (starts_of_stopped_computation entry allowance program m).mono (fun _ _ => id)
    fun interrupt _ stopped name line same => ?_
  subst same
  rcases stopped with ⟨_, ⟨⟩⟩ | ⟨first, later, starts, reaches, raises⟩
  obtain ⟨reference, token, found⟩ := raises.misses
  exact ⟨first, later, reference, token, starts, reaches, found⟩

/-- At a moment, frames and scopes agree: the current frames match the scopes in
which the analysis arrived at the part that is run.  A part that holds no
reference may stand at several places of the texts; of every other part all
places are meant.  Variables with a distance are found, and can be assigned
except inside their own initializer. -/
structure Moment.InAgreement (distances : Distances) (texts : List Text) (moment : Moment) :
    Prop where
  somewhere : ∀ part, moment.task.part? = some part →
    ∃ analysis, Visited texts analysis part ∧ moment.machine.Matches analysis.scopes
  everywhere : ∀ part analysis, moment.task.part? = some part → part.references ≠ [] →
    Visited texts analysis part → moment.machine.Matches analysis.scopes
  named : ∀ n reference name distance, moment.allowance = n + 1 →
    moment.task = .evaluate (.variable reference name) → distances[reference]? = some distance →
      ∃ value, evaluate distances (n + 1) (.variable reference name) moment.machine =
        .ok value moment.machine
  receiver : ∀ n reference keyword distance, moment.allowance = n + 1 →
    moment.task = .evaluate (.this reference keyword) → distances[reference]? = some distance →
      ∃ value, evaluate distances (n + 1) (.this reference keyword) moment.machine =
        .ok value moment.machine
  assigned : ∀ n reference name expr distance value later, moment.allowance = n + 1 →
    moment.task = .evaluate (.assign reference name expr) →
      distances[reference]? = some distance →
        evaluate distances n expr moment.machine = .ok value later →
          (∃ after, evaluate distances (n + 1) (.assign reference name expr) moment.machine =
            .ok value after) ∨ AssignsOwnInitializer distances texts reference name expr

/-- What agrees with one of the places of a part that holds a reference agrees
with all of them, since there is only one. -/
theorem Session.Knows.unique {session : Session} (knows : session.Knows texts)
    {first second : Analysis} {part : Part} (visited : Visited texts first part)
    (again : Visited texts second part) (holds : part.references ≠ []) : first = second := by
  obtain ⟨text, listed, accepted, visits⟩ := visited
  obtain ⟨other, listed', accepted', visits'⟩ := again
  obtain ⟨⟨reference, name⟩, among⟩ := List.exists_mem_of_ne_nil _ holds
  have same : text = other := by
    apply knows.apart text listed other listed' reference
    · exact List.mem_map_of_mem ((visits.arrives accepted).subset among)
    · exact List.mem_map_of_mem ((visits'.arrives accepted').subset among)
  rw [← same] at visits'
  exact visits.unique accepted.numbered visits' holds

theorem Moment.Good.inAgreement {session : Session} {moment : Moment} (good : moment.Good texts)
    (knows : session.Knows texts) : moment.InAgreement session.distances texts := by
  obtain ⟨sound, ready⟩ := good
  refine ⟨fun part about => ?_, fun part analysis about holds visited => ?_,
    fun n reference name distance _ evaluates recorded => ?_,
    fun n reference keyword distance _ evaluates recorded => ?_,
    fun n reference name expr distance value later _ evaluates recorded ran => ?_⟩
  · obtain ⟨analysis, visited, agrees⟩ := ready.inScope about
    exact ⟨analysis, visited, agrees.matches⟩
  · obtain ⟨again, visited', agrees⟩ := ready.inScope about
    rw [knows.unique visited visited' holds]
    exact agrees.matches
  · rw [evaluates] at ready
    obtain ⟨analysis, visited, agrees⟩ := ready
    obtain ⟨value, found⟩ := lookUp_variable knows.kept visited agrees recorded
    exact ⟨value, by rw [evaluate, recorded]; exact found⟩
  · rw [evaluates] at ready
    obtain ⟨analysis, visited, agrees⟩ := ready
    obtain ⟨value, found⟩ := lookUp_this knows.kept visited agrees recorded
    exact ⟨value, by rw [evaluate, recorded]; exact found⟩
  · rw [evaluates] at ready
    obtain ⟨analysis, visited, agrees⟩ := ready
    obtain ⟨_, _, _, agrees⟩ := (visited.call .value).evaluated sound agrees ran
    rcases assign_visited knows.kept visited value agrees recorded with ⟨after, found⟩ | own
    · refine .inl ⟨after, ?_⟩
      rw [evaluate, recorded]
      show EStateM.bind (evaluate session.distances n expr) _ moment.machine = _
      rw [EStateM.bind, ran]
      show EStateM.bind (Execution.assign (some distance) name value) _ later = _
      rw [EStateM.bind, found]
      rfl
    · exact .inr own

namespace Session

/-- What a session comes to is a good moment. -/
theorem History.good {session : Session} {entry : Entry} {source : String} {text : Text}
    {allowance : Nat} {moment : Moment} (history : session.History texts)
    (accepted : session.accepted? entry source = some text)
    (comes : session.ComesTo allowance entry source moment) : moment.Good (text :: texts) := by
  obtain ⟨first, starts, reaches⟩ := comes
  have sound := history.sound
  have current := history.current
  have known : session.machine.Sound (text :: texts) :=
    sound.known fun _ => List.mem_cons_of_mem text
  have visited := (history.knows.accept accepted).visited List.mem_cons_self
  obtain ⟨_, rfl⟩ := accepted?_eq_some.1 accepted
  exact (starts.good visited rfl known current).reach reaches

/-- In a session with any history, frames and scopes agree at every moment to
which an accepted text comes.  If the text is stopped because a variable is
undefined, then at one of these moments, and its reference has no distance or
is assigned inside the initializer of the variable itself. -/
theorem History.frames_agree_with_scopes {session : Session} {entry : Entry} {source : String}
    {text : Text} (history : session.History texts)
    (accepted : session.accepted? entry source = some text) (allowance : Nat) :
    (∀ moment, session.ComesTo allowance entry source moment →
      moment.InAgreement (session.analysed entry source).distances (text :: texts)) ∧
    ∀ name line, (session.enter allowance entry source).2 =
        some (.interrupted (.runtime ⟨.undefinedVariable name, line⟩)) →
      ∃ moment reference token, session.ComesTo allowance entry source moment ∧
        moment.Misses (session.analysed entry source).distances reference token ∧
        token.lexeme = name ∧ token.line = line ∧
        ((session.analysed entry source).distances[reference]? = none ∨
          ∃ expr, moment.task = .evaluate (.assign reference token expr) ∧
            AssignsOwnInitializer (session.analysed entry source).distances (text :: texts)
              reference token expr) := by
  have knows := history.knows.accept accepted
  constructor
  · intro moment comes
    exact (history.good accepted comes).inAgreement knows
  · intro name line stopped
    rw [enter_accepted allowance accepted] at stopped
    obtain ⟨later, ran⟩ := error_of_perform stopped
    obtain ⟨first, moment, reference, token, starts, reaches, misses, same, same'⟩ :=
      (starts_of_undefined_computation entry allowance text.program session.machine).stopped ran
        name line rfl
    obtain ⟨_, rfl⟩ := accepted?_eq_some.1 accepted
    have comes : session.ComesTo allowance entry source moment := ⟨first, starts, reaches⟩
    exact ⟨moment, reference, token, comes, misses, same, same',
      (history.good accepted comes).misses knows.kept misses⟩

/-- A session that has run one line. -/
def afterLine : Session :=
  (start.enter 100 .line "var a;").1

/-- A function is called when the block around it has ended. -/
def lateCall : String :=
  "{var b=a;fun g(){return b;}a=g;}print a();"

theorem lateCall_agrees : ∃ texts text, afterLine.History texts ∧
    afterLine.accepted? .script lateCall = some text ∧
      (∀ moment, afterLine.ComesTo 100 .script lateCall moment →
        moment.InAgreement (afterLine.analysed .script lateCall).distances (text :: texts)) ∧
      ∀ name line, (afterLine.enter 100 .script lateCall).2 =
          some (.interrupted (.runtime ⟨.undefinedVariable name, line⟩)) →
        ∃ moment reference token, afterLine.ComesTo 100 .script lateCall moment ∧
          moment.Misses (afterLine.analysed .script lateCall).distances reference token ∧
          token.lexeme = name ∧ token.line = line ∧
          ((afterLine.analysed .script lateCall).distances[reference]? = none ∨
            ∃ expr, moment.task = .evaluate (.assign reference token expr) ∧
              AssignsOwnInitializer (afterLine.analysed .script lateCall).distances
                (text :: texts) reference token expr) := by
  have history := (History.start {} (.ticking 0)).enter 100 .line "var a;"
  have quiet : (afterLine.errors .script lateCall).isEmpty = true := by decide +kernel
  have accepted := accepted?_eq_some.2 ⟨List.isEmpty_iff.1 quiet, rfl⟩
  exact ⟨_, _, history, accepted, history.frames_agree_with_scopes accepted 100⟩

end Session

end Lox
