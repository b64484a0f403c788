/-
# `this` is the receiver

A method that is read from an instance serves it, and so do the functions that are
declared while its body runs, and those that are declared while the bodies of these
run, whoever calls them and however late (`Session.Serves`).  A method of a class that
is declared there does not: it serves the instance from which it is read.

Wherever a function that serves an instance runs, `this` is this instance
(`Session.this_is_receiver`).  The analysis counts the scopes up to the one of the
class that is written around the method, and the frame that lies so many frames
outwards is the one that was made when the method was read.
-/

import Lox.Proofs.Receivers

namespace Lox

open Execution

/-- For each open scope, the innermost first, whether it declares `this`. -/
def Analysis.declaresThis (analysis : Analysis) : List Bool :=
  analysis.scopes.map (·.contains "this")

/-- From a frame outwards, the first one of which the scope declares `this` binds it to
an instance. -/
def FrameStore.Receives (store : FrameStore Value) (object : Instance) : FrameId → List Bool → Prop
  | _, [] => False
  | id, true :: _ => store.bound? id "this" = some (.instanceValue object)
  | id, false :: outer =>
    ∃ enclosing, store.enclosing? id = some enclosing ∧ store.Receives object enclosing outer

namespace FrameStore.Receives

variable {first second store : FrameStore Value} {object : Instance} {id : FrameId}
  {declares : List Bool}

/-- What a frame receives in the end it received as soon as it was there. -/
theorem earlier (receives : second.Receives object id declares)
    (untouched : Untouched "this" first second) (inside : id < first.nextId) :
    first.Receives object id declares := by
  induction declares generalizing id with
  | nil => exact receives
  | cons declared outer ih =>
      cases declared with
      | true => exact (untouched.bound id inside).symm.trans receives
      | false =>
          obtain ⟨enclosing, enclosed, more⟩ := receives
          rw [untouched.enclosing id inside] at enclosed
          exact ⟨enclosing, enclosed, ih more (Nat.lt_trans (lt_of_enclosing? enclosed) inside)⟩

/-- At the distance of `this` stands the instance. -/
theorem getAt? (receives : store.Receives object id declares) :
    ∃ distance, declares.findIdx? (·) = some distance ∧
      store.getAt? id distance "this" = some (.instanceValue object) := by
  induction declares generalizing id with
  | nil => exact receives.elim
  | cons declared outer ih =>
      cases declared with
      | true => exact ⟨0, rfl, receives⟩
      | false =>
          obtain ⟨enclosing, enclosed, more⟩ := receives
          obtain ⟨distance, found, same⟩ := ih more
          refine ⟨distance + 1, ?_, ?_⟩
          · rw [List.findIdx?_cons, found]
            rfl
          · rw [FrameStore.getAt?, FrameStore.ancestor?, enclosed]
            exact same

end FrameStore.Receives

namespace Analysis

theorem distance?_this (analysis : Analysis) :
    analysis.distance? "this" = analysis.declaresThis.findIdx? (·) := by
  rw [distance?, declaresThis, List.findIdx?_map]
  rfl

theorem declaresThis_congr {first second : Analysis} (same : first.scopes = second.scopes) :
    first.declaresThis = second.declaresThis := by
  rw [declaresThis, same, declaresThis]

theorem contains_insert_this {name : String} (different : "this" ≠ name) (scope : Scope)
    (flag : Bool) : (scope.insert name flag).contains "this" = scope.contains "this" := by
  rw [Bool.eq_iff_iff, Scope.contains_insert]
  exact or_iff_right different

theorem map_declared {name : String} (different : "this" ≠ name) (scopes : List Scope) :
    (declared name scopes).map (·.contains "this") = scopes.map (·.contains "this") := by
  cases scopes with
  | nil => rfl
  | cons scope outer =>
      rw [declared, List.map_cons, List.map_cons, contains_insert_this different]

theorem map_defined {name : String} (different : "this" ≠ name) (scopes : List Scope) :
    (defined name scopes).map (·.contains "this") = scopes.map (·.contains "this") := by
  cases scopes with
  | nil => rfl
  | cons scope outer =>
      rw [defined, List.map_cons, List.map_cons, contains_insert_this different]

theorem declaresThis_declare (analysis : Analysis) {name : Token}
    (different : "this" ≠ name.lexeme) :
    (analysis.declare name).declaresThis = analysis.declaresThis := by
  rw [declaresThis, scopes_declare, map_declared different]
  rfl

theorem declaresThis_define (analysis : Analysis) {name : Token}
    (different : "this" ≠ name.lexeme) :
    (analysis.define name).declaresThis = analysis.declaresThis := by
  rw [declaresThis, scopes_define, map_defined different]
  rfl

/-- Behind a statement as many scopes declare `this` as in front of it. -/
theorem declaresThis_stmt (analysis : Analysis) {stmt : Stmt Reference}
    (shaped : stmt.Shaped Token.WellSpelled) :
    (analysis.stmt stmt).declaresThis = analysis.declaresThis := by
  have behind (name : Token) (named : name.Names Token.WellSpelled) :
      (defined name.lexeme (declared name.lexeme analysis.scopes)).map (·.contains "this") =
        analysis.declaresThis := by
    rw [map_defined named.ne_this, map_declared named.ne_this]
    rfl
  rw [declaresThis, scopes_stmt analysis shaped]
  cases stmt with
  | varDecl name initializer =>
      cases initializer with
      | none => exact behind name shaped
      | some initializer => exact behind name shaped.1
  | funDecl declaration =>
      cases declaration
      exact behind _ shaped.1
  | classDecl name methods => exact behind name shaped.1
  | _ => rfl

/-- The scope of a function holds its parameters, and `this` is none of them. -/
theorem declaresThis_enterFunction (analysis : Analysis) (kind : FunctionKind)
    {names : List Token} (named : ∀ name ∈ names, name.Names Token.WellSpelled) :
    (analysis.enterFunction kind names).declaresThis = false :: analysis.declaresThis := by
  have entered : (enter { analysis with inFunction := some kind }).scopes =
      ({} : Scope) :: analysis.scopes := rfl
  obtain ⟨scope, inner, held⟩ := scopes_parameters entered names
  have absent : scope.contains "this" = false := by
    rw [← Std.TreeMap.isSome_getElem?_eq_contains, held "this", if_neg]
    · rfl
    · intro member
      obtain ⟨name, listed, same⟩ := List.mem_map.1 member
      exact (named name listed).ne_this same.symm
  rw [declaresThis, enterFunction, inner, List.map_cons, absent]
  rfl

end Analysis

variable {texts : List Text} {distances : Distances}

/-- A part stands inside another one, in the same frame or in a new one, and in the same
scopes or in a new one, as far as they declare `this`. -/
inductive Part.Inside (analysis : Analysis) (part : Part) (m : Machine) :
    Analysis → Part → Machine → Prop where
  | same {m' : Machine} (current : m'.current = m.current) :
      Inside analysis part m analysis part m'
  | called {inner : Analysis} {piece : Part} {m' : Machine} (calls : analysis.Calls part inner piece)
      (declares : inner.declaresThis = analysis.declaresThis) (current : m'.current = m.current) :
      Inside analysis part m inner piece m'
  | entered {inner : Analysis} {piece : Part} {m' : Machine}
      (calls : analysis.Calls part inner piece)
      (declares : inner.declaresThis = false :: analysis.declaresThis)
      (entering : m' = m.entering m.current {}) : Inside analysis part m inner piece m'

open Analysis in
/-- What a moment asks for, if it is no call of a value, stands inside what it is
about itself. -/
theorem Moment.Asks.inside {first second : Moment} (asks : Asks distances first second)
    {part piece : Part} (about : first.task.part? = some part)
    (about' : second.task.part? = some piece) (analysis : Analysis)
    (shaped : part.Shaped Token.WellSpelled) :
    ∃ inner, part.Inside analysis first.machine inner piece second.machine := by
  have evaluated {n : Nat} {expr : Expr Reference} {m m' : Machine} {value : Value}
      (ran : evaluate distances n expr m = .ok value m') : m'.current = m.current :=
    ((stays_evaluate n expr m).finished ran).current
  have executed {n : Nat} {stmt : Stmt Reference} {m m' : Machine} {completion : Completion}
      (ran : execute distances n stmt m = .ok completion m') : m'.current = m.current :=
    ((stays_execute n stmt m).finished ran).current
  have behind (expr : Expr Reference) : (analysis.expr expr).declaresThis = analysis.declaresThis :=
    declaresThis_congr (scopes_expr analysis expr)
  cases asks with
  | body => cases about
  | call => cases about'
  | inner => cases about; cases about'; exact ⟨_, .called .inner rfl rfl⟩
  | operand => cases about; cases about'; exact ⟨_, .called .operand rfl rfl⟩
  | left => cases about; cases about'; exact ⟨_, .called .left rfl rfl⟩
  | right ran => cases about; cases about'; exact ⟨_, .called .right (behind _) (evaluated ran)⟩
  | first => cases about; cases about'; exact ⟨_, .called .first rfl rfl⟩
  | second ran => cases about; cases about'; exact ⟨_, .called .second (behind _) (evaluated ran)⟩
  | value => cases about; cases about'; exact ⟨_, .called .value rfl rfl⟩
  | callee => cases about; cases about'; exact ⟨_, .called .callee rfl rfl⟩
  | arguments ran =>
      cases about
      cases about'
      exact ⟨_, .called .arguments (behind _) (evaluated ran)⟩
  | object => cases about; cases about'; exact ⟨_, .called .object rfl rfl⟩
  | owner => cases about; cases about'; exact ⟨_, .called .owner (behind _) rfl⟩
  | stored ran => cases about; cases about'; exact ⟨_, .called .stored rfl (evaluated ran)⟩
  | firstExpr => cases about; cases about'; exact ⟨_, .called .firstExpr rfl rfl⟩
  | otherExprs ran =>
      cases about
      cases about'
      exact ⟨_, .called .otherExprs (behind _) (evaluated ran)⟩
  | expression => cases about; cases about'; exact ⟨_, .called .expression rfl rfl⟩
  | print => cases about; cases about'; exact ⟨_, .called .print rfl rfl⟩
  | initializer =>
      cases about
      cases about'
      exact ⟨_, .called .initializer (declaresThis_declare analysis shaped.1.ne_this) rfl⟩
  | block => cases about; cases about'; exact ⟨_, .entered .block rfl rfl⟩
  | condition => cases about; cases about'; exact ⟨_, .called .condition rfl rfl⟩
  | onTrue ran => cases about; cases about'; exact ⟨_, .called .onTrue (behind _) (evaluated ran)⟩
  | onFalse ran =>
      cases about
      cases about'
      exact ⟨_, .called .onFalse ((declaresThis_stmt _ shaped.2.1.1).trans (behind _))
        (evaluated ran)⟩
  | loop => cases about; cases about'; exact ⟨_, .same rfl⟩
  | guard => cases about; cases about'; exact ⟨_, .called .guard rfl rfl⟩
  | round ran => cases about; cases about'; exact ⟨_, .called .round (behind _) (evaluated ran)⟩
  | again ran _ ran' =>
      cases about
      cases about'
      exact ⟨_, .same ((executed ran').trans (evaluated ran))⟩
  | returned =>
      cases about
      cases about'
      exact ⟨_, .called .returned (declaresThis_congr (scopes_returning analysis _)) rfl⟩
  | firstStmt => cases about; cases about'; exact ⟨_, .called .firstStmt rfl rfl⟩
  | otherStmts ran =>
      cases about
      cases about'
      exact ⟨_, .called .otherStmts (declaresThis_stmt analysis shaped.1) (executed ran)⟩

/-- What can serve an instance: a function, or a moment at which something is run. -/
inductive Servant where
  | function (closure : Closure)
  | moment (distances : Distances) (moment : Moment)

/-- A function serves an instance if it is a method that was read from it, or was
declared at a moment that serves it.  A moment serves an instance if it runs the body
of such a function, or if it is asked for by a moment that does; but what a call asks
for serves the instance only if the function that is called does. -/
inductive Session.Serves (session : Session) (texts : List Text) (object : Instance) :
    Servant → Prop where
  | read {distances : Distances} {n : Nat} {m m' m'' : Machine} {expr : Expr Reference}
      {name : Token} {closure : Closure}
      (recalls : session.Recalls texts distances ⟨n + 1, .evaluate (.get expr name), m⟩)
      (owner : evaluate distances n expr m = .ok (.instanceValue object) m')
      (noField : m'.fields[object.identity]?.bind (·[name.lexeme]?) = none)
      (read : property object name m' = .ok (.function closure) m'') :
      Serves session texts object (.function closure)
  | declared {distances : Distances} {n : Nat} {m m' : Machine}
      {declaration : FunctionDecl Reference} {closure : Closure}
      (serves : Serves session texts object
        (.moment distances ⟨n + 1, .execute (.funDecl declaration), m⟩))
      (made : newClosure declaration m.current m = .ok (.function closure) m') :
      Serves session texts object (.function closure)
  | called {distances : Distances} {n : Nat} {m : Machine} {closure : Closure} {paren : Token}
      {arguments : List Value} (serves : Serves session texts object (.function closure))
      (recalls : session.Recalls texts distances
        ⟨n + 1, .call (.function closure) paren arguments, m⟩)
      (arity : arguments.length = closure.declaration.parameters.length) :
      Serves session texts object (.moment distances
        ⟨n, .executeAll closure.declaration.body, m.entering closure.home
          (argumentBindings closure.declaration.parameters arguments)⟩)
  | asked {distances : Distances} {first second : Moment} {piece : Part}
      (serves : Serves session texts object (.moment distances first))
      (asks : Moment.Asks distances first second) (about : second.task.part? = some piece) :
      Serves session texts object (.moment distances second)

variable {session : Session} {object : Instance}

/-- The place of a servant: the analysis arrived at it in scopes the frames of which
receive the instance. -/
def Servant.InPlace (session : Session) (texts : List Text) (object : Instance) : Servant → Prop
  | .function closure => ∃ analysis kind,
    Visited texts analysis (.function kind closure.declaration) ∧
      session.machine.frames.Receives object closure.home analysis.declaresThis
  | .moment distances now => session.Recalls texts distances now ∧
    ∃ analysis part, now.task.part? = some part ∧ Visited texts analysis part ∧
      session.machine.frames.Receives object now.machine.current analysis.declaresThis

/-- To read a method makes a frame that binds `this`, inside the one of the class. -/
theorem property_method {object : Instance} {name : Token} {machine later : Machine}
    {closure : Closure}
    (noField : machine.fields[object.identity]?.bind (·[name.lexeme]?) = none)
    (read : property object name machine = .ok (.function closure) later) :
    closure.declaration ∈ object.ofClass.methods ∧ closure.home = machine.frames.nextId ∧
      later.frames = machine.frames.push (some object.ofClass.home)
        (({} : Bindings Value).insert "this" (.instanceValue object)) := by
  rw [property, get_bind_apply, noField] at read
  dsimp only at read
  cases found : object.ofClass.method? name.lexeme with
  | none =>
      rw [found] at read
      cases read
  | some method =>
      rw [found] at read
      cases read
      exact ⟨ClassOf.mem_of_method? found, rfl, rfl⟩

namespace Session

/-- What is done in the end of a moment that reads a method. -/
theorem after_get {n : Nat} {m m' m'' : Machine} {expr : Expr Reference} {name : Token}
    {value : Value} (owner : evaluate distances n expr m = .ok (.instanceValue object) m')
    (read : property object name m' = .ok value m'') :
    Moment.after distances ⟨n + 1, .evaluate (.get expr name), m⟩ = m'' := by
  show machineOf ((evaluate distances n expr >>= _) m) = m''
  rw [bind_of_ok owner]
  show machineOf (property object name m') = m''
  rw [read]
  rfl

/-- The frame that is made when a method is read binds `this` to the instance for
good. -/
theorem Recalls.bound_of_read {n : Nat} {m m' m'' : Machine} {expr : Expr Reference}
    {name : Token} {closure : Closure}
    (recalls : session.Recalls texts distances ⟨n + 1, .evaluate (.get expr name), m⟩)
    (owner : evaluate distances n expr m = .ok (.instanceValue object) m')
    (noField : m'.fields[object.identity]?.bind (·[name.lexeme]?) = none)
    (read : property object name m' = .ok (.function closure) m'') :
    m''.frames.bound? closure.home "this" = some (.instanceValue object) ∧
      session.machine.frames.bound? closure.home "this" = some (.instanceValue object) := by
  obtain ⟨known, recalled⟩ := recalls.recalled
  obtain ⟨_, home, frames⟩ := property_method noField read
  have here : m''.frames.bound? closure.home "this" = some (.instanceValue object) := by
    rw [frames, home, FrameStore.bound?_push, if_pos rfl, Bindings.getElem?_insert, if_pos rfl]
  have inside : closure.home < m''.frames.nextId := by
    rw [frames, home, FrameStore.nextId_push]
    exact Nat.lt_succ_self _
  have after := recalled.after
  rw [after_get owner read] at after
  exact ⟨here, (after.bound _ inside).trans here⟩

theorem Recalled.current_lt {known : List Text} {moment : Moment} {part : Part}
    (recalled : session.Recalled texts distances moment known)
    (about : moment.task.part? = some part) :
    moment.machine.current < moment.machine.frames.nextId := by
  obtain ⟨analysis, _, agrees⟩ := recalled.good.ready.inScope about
  exact agrees.lt_nextId recalled.good.sound.started

/-- A frame that is entered stays inside the one in which it was made. -/
theorem Recalled.enclosing_of_entering {known : List Text} {moment : Moment} {m : Machine}
    {enclosing : FrameId} {bindings : Bindings Value}
    (recalled : session.Recalled texts distances moment known)
    (entering : moment.machine = m.entering enclosing bindings)
    (inside : enclosing < m.frames.nextId) :
    session.machine.frames.enclosing? moment.machine.current = some enclosing := by
  have start := recalled.start.enclosing moment.machine.current
  rw [entering, Machine.entering, FrameStore.nextId_push] at start
  rw [entering, Machine.entering, start (Nat.lt_succ_self _), FrameStore.enclosing?_push,
    if_pos rfl, Option.filter_some, if_pos (by simpa using inside)]

/-- Whatever serves an instance is in its place. -/
theorem Serves.inPlace {servant : Servant} (serves : session.Serves texts object servant) :
    servant.InPlace session texts object := by
  induction serves with
  | @read distances n m m' m'' expr name closure recalls owner noField read =>
      obtain ⟨known, recalled⟩ := recalls.recalled
      obtain ⟨sound, analysis, visited, agrees⟩ := recalled.good
      obtain ⟨_, ⟨_, outer, inClass, scopes, _⟩, _⟩ :=
        (visited.call .object).evaluated sound agrees owner
      obtain ⟨member, _, _⟩ := property_method noField read
      obtain ⟨inner, walked, same⟩ := inClass.method member
      have declares : inner.declaresThis = true :: outer.map (·.contains "this") := by
        have own : Analysis.receiverScope.contains "this" = true :=
          (Scope.contains_insert ..).2 (.inl rfl)
        rw [Analysis.declaresThis, same, scopes, List.map_cons, own]
      refine ⟨inner, .method, walked.mono recalled.subset, ?_⟩
      rw [declares]
      exact (recalls.bound_of_read owner noField read).2
  | @declared distances n m m' declaration closure serves made ih =>
      obtain ⟨_, analysis, _, ⟨⟩, visited, receives⟩ := ih
      obtain ⟨name, names, body⟩ := declaration
      have different : "this" ≠ name.lexeme := visited.shaped.1.ne_this
      have declares : ((analysis.declare name).define name).declaresThis = analysis.declaresThis :=
        (Analysis.declaresThis_define _ different).trans
          (Analysis.declaresThis_declare analysis different)
      cases made
      exact ⟨_, .function, visited.call .function, declares.symm ▸ receives⟩
  | @called distances n m closure paren arguments serves recalls arity ih =>
      obtain ⟨analysis, kind, visited, receives⟩ := ih
      obtain ⟨identity, ⟨name, names, body⟩, home⟩ := closure
      have inBody := recalls.ask (.body arity)
      refine ⟨inBody, _, _, rfl, visited.call .body, ?_⟩
      rw [Analysis.declaresThis_enterFunction analysis kind visited.shaped.2.1]
      refine ⟨home, ?_, receives⟩
      obtain ⟨_, recalled⟩ := recalls.recalled
      obtain ⟨_, entered⟩ := inBody.recalled
      obtain ⟨sound, ⟨_, _, _, agrees⟩, _⟩ := recalled.good
      exact entered.enclosing_of_entering rfl (agrees.lt_nextId sound.started)
  | @asked distances first second piece serves asks about ih =>
      obtain ⟨recalls, analysis, part, about', visited, receives⟩ := ih
      have recalls' := recalls.ask asks
      obtain ⟨inner, inside⟩ := asks.inside about' about analysis visited.shaped
      cases inside with
      | same current => exact ⟨recalls', analysis, _, about, visited, current ▸ receives⟩
      | called calls declares current =>
          exact ⟨recalls', inner, piece, about, visited.call calls, current ▸ declares ▸ receives⟩
      | entered calls declares entering =>
          obtain ⟨_, recalled⟩ := recalls.recalled
          obtain ⟨_, entered⟩ := recalls'.recalled
          refine ⟨recalls', inner, piece, about, visited.call calls, ?_⟩
          rw [declares]
          refine ⟨first.machine.current, ?_, receives⟩
          exact entered.enclosing_of_entering entering (recalled.current_lt about')

/-- At a moment that serves an instance, `this` is the instance. -/
theorem Serves.evaluate_this {n : Nat} {m : Machine} {reference : Reference} {keyword : Token}
    (serves : session.Serves texts object
      (.moment distances ⟨n + 1, .evaluate (.this reference keyword), m⟩)) :
    evaluate distances (n + 1) (.this reference keyword) m = .ok (.instanceValue object) m := by
  obtain ⟨recalls, analysis, _, ⟨⟩, visited, receives⟩ := serves.inPlace
  obtain ⟨known, recalled⟩ := recalls.recalled
  obtain ⟨sound, again, visited', agrees⟩ := recalled.good
  have same := recalls.history.knows.unique visited (visited'.mono recalled.subset)
    (List.cons_ne_nil _ _)
  have spelled : keyword.lexeme = "this" :=
    visited.shaped.1.lexeme_eq_of_keyword visited.shaped.2
  have recorded := visited'.distance_this recalled.resolved
  have inside := receives.earlier recalled.start (agrees.lt_nextId sound.started)
  obtain ⟨distance, found, here⟩ := inside.getAt?
  rw [← same, spelled, Analysis.distance?_this, found] at recorded
  rw [evaluate, recorded, lookUp, get_bind_apply, spelled]
  dsimp only
  rw [here]
  rfl

/-- Whenever a method that was read from an instance is called, `this` is this instance
all over its body, and in all functions that are declared there.  The frame that was
made when the method was read binds `this` to the instance, and no step of any run
touches what any frame binds `this` to, so that this is what it binds it to for the
rest of the session. -/
theorem this_is_receiver (session : Session) (texts : List Text) :
    (∀ object distances n reference keyword m,
      session.Serves texts object
          (.moment distances ⟨n + 1, .evaluate (.this reference keyword), m⟩) →
        evaluate distances (n + 1) (.this reference keyword) m = .ok (.instanceValue object) m) ∧
    (∀ object distances n m m' m'' expr name closure,
      session.Recalls texts distances ⟨n + 1, .evaluate (.get expr name), m⟩ →
      evaluate distances n expr m = .ok (.instanceValue object) m' →
      m'.fields[object.identity]?.bind (·[name.lexeme]?) = none →
      property object name m' = .ok (.function closure) m'' →
        m''.frames.bound? closure.home "this" = some (.instanceValue object) ∧
        session.machine.frames.bound? closure.home "this" = some (.instanceValue object)) ∧
    ∀ distances moment, session.Recalls texts distances moment →
      (∀ earlier later, moment.Does distances earlier later →
        FrameStore.Untouched "this" earlier.frames later.frames) ∧
      FrameStore.Untouched "this" moment.machine.frames (moment.after distances).frames ∧
      FrameStore.Untouched "this" moment.machine.frames session.machine.frames ∧
      FrameStore.Untouched "this" (moment.after distances).frames session.machine.frames := by
  refine ⟨fun _ _ _ _ _ _ serves => serves.evaluate_this,
    fun _ _ _ _ _ _ _ _ _ recalls owner noField read =>
      recalls.bound_of_read owner noField read,
    fun distances moment recalls => ?_⟩
  obtain ⟨known, recalled⟩ := recalls.recalled
  exact ⟨fun _ _ does => does.untouched recalled.good, moment.flows.untouched recalled.good,
    recalled.start, recalled.after⟩

/-- A session that knows a class of boxes. -/
def boxes : Session :=
  (start.enter 10 .script "class Box\x7bme()\x7breturn this;\x7d\x7d").1

/-- A new box is asked for itself. -/
def askBox : String :=
  "Box().me();"

/-- The expression that is evaluated, with its parts: a method is read from what a call
gives, and called. -/
def asksForMethod : List (Stmt Reference) → Option (Expr Reference × Token × Token)
  | [.expression (.call (.get object name) paren [])] => some (object, name, paren)
  | _ => none

/-- The method that is read gives `this` back, and nothing else. -/
def readsThis (distances : Distances) (object : Expr Reference) (name : Token) (m : Machine) :
    Bool :=
  match evaluate distances 7 object m with
  | .ok (.instanceValue object) m' =>
    (m'.fields[object.identity]?.bind (·[name.lexeme]?)).isNone &&
      match property object name m' with
      | .ok (.function closure) _ =>
        closure.declaration.parameters.isEmpty &&
          match closure.declaration.body with
          | [.returning _ (some (.this _ _))] => true
          | _ => false
      | _ => false
  | _ => false

theorem exists_of_readsThis {object : Expr Reference} {name : Token} {m : Machine}
    (reads : readsThis distances object name m = true) :
    ∃ owner m' closure m'' keyword reference word,
      evaluate distances 7 object m = .ok (.instanceValue owner) m' ∧
      m'.fields[owner.identity]?.bind (·[name.lexeme]?) = none ∧
      property owner name m' = .ok (.function closure) m'' ∧
      closure.declaration.parameters = [] ∧
      closure.declaration.body = [.returning keyword (some (.this reference word))] := by
  unfold readsThis at reads
  split at reads
  · next owner m' ran =>
      rw [Bool.and_eq_true, Option.isNone_iff_eq_none] at reads
      obtain ⟨noField, reads⟩ := reads
      split at reads
      · next closure m'' read =>
          rw [Bool.and_eq_true, List.isEmpty_iff] at reads
          obtain ⟨none, reads⟩ := reads
          split at reads
          · next keyword reference word body =>
              exact ⟨owner, m', closure, m'', keyword, reference, word, ran, noField, read, none, body⟩
          · cases reads
      · cases reads
  · cases reads

theorem askBox_gives_receiver : ∃ texts object distances n reference keyword m,
    (boxes.enter 10 .script askBox).1.Serves texts object
      (.moment distances ⟨n + 1, .evaluate (.this reference keyword), m⟩) ∧
    evaluate distances (n + 1) (.this reference keyword) m = .ok (.instanceValue object) m := by
  have history := (History.start {} (.ticking 0)).enter 10 .script "class Box\x7bme()\x7breturn this;\x7d\x7d"
  have quiet : (boxes.errors .script askBox).isEmpty = true := by decide +kernel
  have accepted := accepted?_eq_some.2 ⟨List.isEmpty_iff.1 quiet, rfl⟩
  have shape : ∃ object name paren,
      boxes.program .script askBox = [.expression (.call (.get object name) paren [])] := by
    have found : (asksForMethod (boxes.program .script askBox)).isSome = true := by decide +kernel
    unfold asksForMethod at found
    split at found
    · next object name paren same => exact ⟨object, name, paren, same⟩
    · cases found
  obtain ⟨object, name, paren, program⟩ := shape
  have reads : readsThis (boxes.analysed .script askBox).distances object name boxes.machine =
      true := by
    have all : ((asksForMethod (boxes.program .script askBox)).all fun parts =>
        readsThis (boxes.analysed .script askBox).distances parts.1 parts.2.1 boxes.machine) =
          true := by decide +kernel
    rwa [program] at all
  obtain ⟨owner, m', closure, m'', keyword, reference, word, ran, noField, read, none, body⟩ :=
    exists_of_readsThis reads
  have starts : Entry.script.Starts (boxes.analysed .script askBox).distances 10
      (boxes.program .script askBox) boxes.machine
      ⟨10, .execute (.expression (.call (.get object name) paren [])), boxes.machine⟩ := by
    rw [program]
    exact .first
  have evaluates := (Recalls.now history accepted ⟨_, starts, .refl⟩).ask .expression
  have got : evaluate (boxes.analysed .script askBox).distances 8 (.get object name)
      boxes.machine = .ok (.function closure) m'' := by
    rw [evaluate, bind_of_ok ran]
    exact read
  have called := Serves.called (.read (evaluates.ask .callee) ran noField read)
    (evaluates.ask (.call got rfl)) (by rw [none]; rfl)
  rw [body] at called
  have serves := ((called.asked .firstStmt rfl).asked .returned rfl)
  exact ⟨_, owner, _, _, reference, word, _, serves,
    (this_is_receiver _ _).1 _ _ _ _ _ _ serves⟩

end Session

end Lox
