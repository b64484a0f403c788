/-
# Every run tells its trace

Each step of a run is looked at once: what it does to the fields is the event of the
trace, and it binds no instance that the trace does not know.  By induction on the
allowance every task then tells its trace, and so do programs, texts and sessions.

Nothing is supposed of the trees that are run nor of the distances.
-/

import Lox.Proofs.Fields.Records
import Lox.Proofs.Receivers

namespace Lox

namespace Execution

variable {α : Type} {prior events : List FieldEvent} {machine : Machine}
  {holds : List Instance → α → Prop}

/-! ## Single steps -/

theorem Tells.pure {value : α} (reached : machine.Reached prior)
    (good : holds (instancesOf prior) value) : Tells prior machine (Pure.pure value) [] holds :=
  tells_silent reached ⟨reached.records, good⟩

theorem Tells.throw (reached : machine.Reached prior) (interrupt : Interrupt) :
    Tells prior machine (MonadExcept.throw interrupt : Execution α) [] holds :=
  tells_silent reached reached.records

theorem Tells.fail (reached : machine.Reached prior) (place : Token) (fault : RuntimeFault) :
    Tells prior machine (Execution.fail place fault : Execution α) [] holds :=
  .throw reached _

/-- A step that is one event of a trace. -/
theorem tells_event {event : FieldEvent} {computation : Execution α}
    (reached : machine.Reached prior) (happens : event.Happens prior)
    (ensures : Ensures computation machine
      (fun value later => later.Records (prior ++ [event]) ∧
        holds (instancesOf (prior ++ [event])) value)
      fun _ later => later.Records (prior ++ [event])) :
    Tells prior machine computation [event] holds := by
  refine ⟨⟨reached.chronicle.concat happens, ?_⟩, fun value later ran => (ensures.finished ran).2⟩
  cases ran : computation machine with
  | ok value later => exact (ensures.finished ran).1
  | error interrupt later => exact ensures.stopped ran

/-- A value that is sound for no text at all is no instance. -/
theorem among_of_sound {objects : List Instance} {value : Value}
    (sound : ∀ frames, Value.Sound [] frames value) : Value.Among objects value := by
  cases value with
  | instanceValue object =>
      obtain ⟨_, _, ⟨_, listed, _⟩, _⟩ := sound {}
      cases listed
  | _ => trivial

theorem tells_prefixValue (reached : machine.Reached prior) (operator : Token) (operand : Value) :
    Tells prior machine (require operator (prefixValue operator operand)) [] Value.Among := by
  cases made : prefixValue operator operand with
  | ok value => exact .pure reached (among_of_sound fun _ => sound_prefixValue made)
  | error fault => exact .fail reached operator fault

theorem tells_infixValue (reached : machine.Reached prior) (operator : Token)
    (left right : Value) :
    Tells prior machine (require operator (infixValue operator left right)) [] Value.Among := by
  cases made : infixValue operator left right with
  | ok value => exact .pure reached (among_of_sound fun _ => sound_infixValue made)
  | error fault => exact .fail reached operator fault

theorem tells_checkArity (reached : machine.Reached prior) (place : Token) (expected given : Nat) :
    Tells prior machine (checkArity place expected given) [] Whatever := by
  unfold checkArity
  split
  · exact .pure reached trivial
  · exact .fail reached _ _

theorem tells_lookUp (reached : machine.Reached prior) (distance : Option Nat) (name : Token) :
    Tells prior machine (lookUp distance name) [] Value.Among := by
  apply tells_silent reached
  apply ensures_bind
  · rintro _ _ ⟨⟩
    dsimp only
    split
    · next value found =>
        refine ⟨reached.records, ?_⟩
        cases distance with
        | none =>
            obtain ⟨binder, _, bound⟩ := Option.bind_eq_some_iff.1 found
            exact reached.records.bound binder name.lexeme value bound
        | some distance =>
            obtain ⟨frame, _, bound⟩ := Option.bind_eq_some_iff.1 found
            exact reached.records.bound frame name.lexeme value bound
    · exact reached.records
  · rintro _ _ ⟨⟩

theorem tells_assign (reached : machine.Reached prior) (distance : Option Nat) (name : Token)
    {value : Value} (good : Value.Among (instancesOf prior) value) :
    Tells prior machine (assign distance name value) [] Whatever := by
  apply tells_silent reached
  apply ensures_bind
  · rintro _ _ ⟨⟩
    dsimp only
    split
    · exact ⟨reached.records.define _ _ good, trivial⟩
    · exact reached.records
  · rintro _ _ ⟨⟩

theorem tells_define (reached : machine.Reached prior) (name : String) {value : Value}
    (good : Value.Among (instancesOf prior) value) :
    Tells prior machine (define name value) [] Whatever :=
  tells_silent reached ⟨reached.records.define _ _ good, trivial⟩

theorem tells_newClosure (reached : machine.Reached prior) (declaration : FunctionDecl Reference)
    (frame : FrameId) : Tells prior machine (newClosure declaration frame) [] Value.Among :=
  tells_silent reached ⟨reached.records.congr rfl rfl, trivial⟩

theorem tells_newClass (reached : machine.Reached prior) (name : String)
    (methods : List (FunctionDecl Reference)) :
    Tells prior machine (newClass name methods) [] Value.Among :=
  tells_silent reached ⟨reached.records.congr rfl rfl, trivial⟩

theorem tells_print (reached : machine.Reached prior) (value : Value) :
    Tells prior machine (print value) [] Whatever := by
  apply tells_silent reached
  unfold print
  apply ensures_bind
  · rintro _ _ ⟨⟩
    rcases machine.console.print value.display with ⟨fault, console⟩
    cases fault with
    | none => exact ⟨reached.records.congr rfl rfl, trivial⟩
    | some fault => exact reached.records.congr rfl rfl
  · rintro _ _ ⟨⟩

theorem tells_readClock (reached : machine.Reached prior) :
    Tells prior machine readClock [] Value.Among :=
  tells_silent reached ⟨reached.records.congr rfl rfl, trivial⟩

/-- A new instance is an event of the trace. -/
theorem tells_newInstance (reached : machine.Reached prior) (cls : Class) :
    Tells prior machine (newInstance cls) [.made ⟨machine.fields.size, cls⟩ machine]
      Value.Among := by
  refine tells_event reached ⟨reached.records, rfl⟩
    ⟨reached.records.newInstance cls machine, ?_⟩
  rw [instancesOf_append]
  exact List.mem_append_right _ List.mem_cons_self

/-- To read a property is an event of the trace, whatever is found. -/
theorem tells_property (reached : machine.Reached prior) {object : Instance}
    (known : object ∈ instancesOf prior) (name : Token) :
    Tells prior machine (property object name) [.read object name machine] Value.Among := by
  have silent {later : Machine} (records : later.Records prior) :
      later.Records (prior ++ [.read object name machine]) :=
    records.silent rfl fun _ _ => rfl
  refine tells_event reached ⟨reached.records, known⟩ ?_
  apply ensures_bind
  · rintro _ _ ⟨⟩
    split
    · next value found =>
        refine ⟨silent reached.records, ?_⟩
        rw [instancesOf_append]
        exact (reached.records.held _ _ value found).mono _
    · split
      · next method _ =>
          have receiver (key : String) (value : Value)
              (bound : (({} : Bindings Value).insert "this" (.instanceValue object))[key]? =
                some value) : Value.Among (instancesOf prior) value := by
            rw [Bindings.getElem?_insert] at bound
            split at bound
            · cases bound
              exact known
            · simp at bound
          have frame := reached.records.push object.ofClass.home receiver machine.current
          exact ⟨silent (frame.congr rfl rfl), trivial⟩
      · exact silent reached.records
  · rintro _ _ ⟨⟩

/-- To assign a property is an event of the trace. -/
theorem tells_setField (reached : machine.Reached prior) {object : Instance}
    (known : object ∈ instancesOf prior) (name : Token) {value : Value}
    (good : Value.Among (instancesOf prior) value) :
    Tells prior machine (setField object name.lexeme value)
      [.assigned object name value machine] Whatever :=
  tells_event reached ⟨reached.records, known⟩
    ⟨reached.records.setField known name good machine, trivial⟩

/-- What runs in a new frame that binds known instances only. -/
theorem tells_inside {computation : Execution α} (reached : machine.Reached prior)
    (enclosing : FrameId) {bindings : Bindings Value}
    (good : ∀ (name : String) value, bindings[name]? = some value →
      Value.Among (instancesOf prior) value)
    (inside : (machine.entering enclosing bindings).Reached prior →
      Tells prior (machine.entering enclosing bindings) computation events holds) :
    Tells prior machine (newFrame enclosing bindings >>= fun frame => within frame computation)
      events holds := by
  obtain ⟨⟨chronicle, records⟩, value⟩ :=
    inside ⟨reached.chronicle, reached.records.push enclosing good machine.frames.nextId⟩
  have ran : (newFrame enclosing bindings >>= fun frame => within frame computation) machine =
      within machine.frames.nextId computation
        { machine with frames := machine.frames.push (some enclosing) bindings } := rfl
  refine ⟨⟨chronicle, ?_⟩, fun result later finished => ?_⟩
  · rw [ran, machineOf_within]
    exact records.congr rfl rfl
  · rw [ran] at finished
    simp only [within] at finished
    split at finished
    · next inner =>
        cases finished
        exact value _ _ inner
    · cases finished

end Execution

open Execution

/-! ## Tasks -/

/-- All values are known. -/
def Value.AllAmong (objects : List Instance) (values : List Value) : Prop :=
  ∀ value ∈ values, Value.Among objects value

/-- A value that is returned is known. -/
def Completion.Among (objects : List Instance) : Completion → Prop
  | .returned value => Value.Among objects value
  | .normal => True

/-- What was known stays known. -/
theorem known_append {prior events : List FieldEvent} {object : Instance}
    (known : object ∈ instancesOf prior) : object ∈ instancesOf (prior ++ events) :=
  instancesOf_append prior events ▸ List.mem_append_left _ known

theorem Value.Among.append {prior events : List FieldEvent} {value : Value}
    (known : Value.Among (instancesOf prior) value) :
    Value.Among (instancesOf (prior ++ events)) value :=
  instancesOf_append prior events ▸ known.mono _

variable {distances : Distances}

mutual

/-- An expression tells its trace. -/
theorem tells_evaluate (n : Nat) (expr : Expr Reference) {prior : List FieldEvent} {m : Machine}
    (reached : m.Reached prior) : Tells prior m (evaluate distances n expr)
      (fieldTrace distances n (.evaluate expr) m) Value.Among := by
  match n, expr with
  | 0, _ => exact .throw reached _
  | n + 1, .literal value =>
      refine .pure reached ?_
      cases value <;> trivial
  | n + 1, .grouping inner => exact tells_evaluate n inner reached
  | n + 1, .unary operator operand =>
      exact (tells_evaluate n operand reached).bind_silent fun _ _ _ reached _ =>
        tells_prefixValue reached operator _
  | n + 1, .binary left operator right =>
      exact (tells_evaluate n left reached).bind fun _ _ _ reached _ =>
        (tells_evaluate n right reached).bind_silent fun _ _ _ reached _ =>
          tells_infixValue reached operator _ _
  | n + 1, .logical left operator right =>
      refine (tells_evaluate n left reached).bind fun value m' _ reached known => ?_
      split
      · exact .pure reached known
      · exact tells_evaluate n right reached
  | n + 1, .variable reference name => exact tells_lookUp reached _ name
  | n + 1, .this reference keyword => exact tells_lookUp reached _ keyword
  | n + 1, .assign reference name value =>
      refine (tells_evaluate n value reached).bind_silent fun value m' _ reached known => ?_
      refine (tells_assign reached _ name known).bind_silent fun _ _ _ reached _ => ?_
      rw [List.append_nil] at reached ⊢
      exact .pure reached known
  | n + 1, .call callee paren arguments =>
      exact (tells_evaluate n callee reached).bind fun value m' _ reached _ =>
        (tells_evaluateAll n arguments reached).bind fun values m'' _ reached known =>
          tells_call n value paren reached known
  | n + 1, .get object name =>
      refine (tells_evaluate n object reached).bind fun owner m' _ reached known => ?_
      cases owner with
      | instanceValue owner => exact tells_property reached known name
      | _ => exact .fail reached _ _
  | n + 1, .set object name value =>
      refine (tells_evaluate n object reached).bind fun owner m' _ reached known => ?_
      cases owner with
      | instanceValue owner =>
          refine (tells_evaluate n value reached).bind fun value m'' _ reached good => ?_
          refine (tells_setField reached (known_append known) name good).bind_silent
            fun _ _ _ reached _ => ?_
          exact .pure reached (Value.Among.append good)
      | _ => exact .fail reached _ _

/-- A row of expressions tells its trace. -/
theorem tells_evaluateAll (n : Nat) (exprs : List (Expr Reference)) {prior : List FieldEvent}
    {m : Machine} (reached : m.Reached prior) : Tells prior m (evaluateAll distances n exprs)
      (fieldTrace distances n (.evaluateAll exprs) m) Value.AllAmong := by
  match n, exprs with
  | 0, _ => exact .throw reached _
  | n + 1, [] =>
      refine .pure reached ?_
      intro value member
      cases member
  | n + 1, first :: rest =>
      refine (tells_evaluate n first reached).bind fun value m' _ reached known => ?_
      refine (tells_evaluateAll n rest reached).bind_silent fun values m'' _ reached others => ?_
      refine .pure reached ?_
      exact List.forall_mem_cons.2 ⟨Value.Among.append known, others⟩

/-- A call with known arguments tells its trace. -/
theorem tells_call (n : Nat) (callee : Value) (paren : Token) {arguments : List Value}
    {prior : List FieldEvent} {m : Machine} (reached : m.Reached prior)
    (known : Value.AllAmong (instancesOf prior) arguments) :
    Tells prior m (call distances n callee paren arguments)
      (fieldTrace distances n (.call callee paren arguments) m) Value.Among := by
  match n, callee with
  | 0, _ => exact .throw reached _
  | n + 1, .function closure =>
      have bound {name : String} {value : Value}
          (here : (argumentBindings closure.declaration.parameters arguments)[name]? = some value) :
          Value.Among (instancesOf prior) value :=
        known value (mem_of_argumentBindings here)
      have body := tells_inside reached closure.home (fun _ _ => bound) fun reached =>
        tells_executeAll n closure.declaration.body reached
      rw [fieldTrace]
      split
      · next arity =>
          refine (tells_checkArity reached _ _ _).silent_bind (fun _ _ checked _ _ => ?_)
            ⟨(), m, by rw [checkArity, if_pos arity]; rfl⟩
          rw [(of_checkArity checked).2]
          refine body.bind_silent fun completion m' _ reached known => ?_
          cases completion with
          | normal => exact .pure reached trivial
          | returned value => exact .pure reached known
      · next arity =>
          exact (tells_checkArity reached _ _ _).bind_silent fun _ _ checked =>
            absurd (of_checkArity checked).1 arity
  | n + 1, .native .clock =>
      exact (tells_checkArity reached _ _ _).bind_silent fun _ _ _ reached _ =>
        tells_readClock reached
  | n + 1, .classValue cls =>
      rw [fieldTrace]
      split
      · next arity =>
          refine (tells_checkArity reached _ _ _).silent_bind (fun _ _ checked _ _ => ?_)
            ⟨(), m, by rw [checkArity, if_pos arity]; rfl⟩
          rw [(of_checkArity checked).2]
          exact tells_newInstance reached cls
      · next arity =>
          exact (tells_checkArity reached _ _ _).bind_silent fun _ _ checked =>
            absurd (of_checkArity checked).1 arity
  | n + 1, .nil => exact .fail reached _ _
  | n + 1, .boolean _ => exact .fail reached _ _
  | n + 1, .number _ => exact .fail reached _ _
  | n + 1, .string _ => exact .fail reached _ _
  | n + 1, .instanceValue _ => exact .fail reached _ _

/-- A statement tells its trace. -/
theorem tells_execute (n : Nat) (stmt : Stmt Reference) {prior : List FieldEvent} {m : Machine}
    (reached : m.Reached prior) : Tells prior m (execute distances n stmt)
      (fieldTrace distances n (.execute stmt) m) Completion.Among := by
  match n, stmt with
  | 0, _ => exact .throw reached _
  | n + 1, .expression expr =>
      exact (tells_evaluate n expr reached).bind_silent fun _ _ _ reached _ =>
        .pure reached trivial
  | n + 1, .print expr =>
      exact (tells_evaluate n expr reached).bind_silent fun value m' _ reached _ =>
        (tells_print reached value).bind_silent fun _ _ _ reached _ => .pure reached trivial
  | n + 1, .varDecl name none =>
      have nothing : Value.Among (instancesOf prior) .nil := trivial
      exact (tells_define reached name.lexeme nothing).bind_silent fun _ _ _ reached _ =>
        .pure reached trivial
  | n + 1, .varDecl name (some initializer) =>
      exact (tells_evaluate n initializer reached).bind_silent fun value m' _ reached known =>
        (tells_define reached name.lexeme known).bind_silent fun _ _ _ reached _ =>
          .pure reached trivial
  | n + 1, .block body =>
      refine .get_bind (tells_inside reached m.current ?_ fun reached =>
        tells_executeAll n body reached)
      intro name value bound
      rw [Std.TreeMap.getElem?_emptyc] at bound
      cases bound
  | n + 1, .conditional condition onTrue onFalse =>
      refine (tells_evaluate n condition reached).bind fun value m' _ reached _ => ?_
      split
      · exact tells_execute n onTrue reached
      · cases onFalse with
        | none => exact .pure reached trivial
        | some onFalse => exact tells_execute n onFalse reached
  | n + 1, .whileLoop condition body => exact tells_loop n condition body reached
  | n + 1, .funDecl declaration =>
      exact .get_bind ((tells_newClosure reached declaration m.current).bind_silent
        fun function m' _ reached known =>
          (tells_define reached declaration.name.lexeme known).bind_silent fun _ _ _ reached _ =>
            .pure reached trivial)
  | n + 1, .returning _ none => exact .pure reached trivial
  | n + 1, .returning _ (some expr) =>
      exact (tells_evaluate n expr reached).bind_silent fun value m' _ reached known =>
        .pure reached known
  | n + 1, .classDecl name methods =>
      exact (tells_newClass reached name.lexeme methods).bind_silent
        fun cls m' _ reached known =>
          (tells_define reached name.lexeme known).bind_silent fun _ _ _ reached _ =>
            .pure reached trivial

/-- A loop tells its trace. -/
theorem tells_loop (n : Nat) (condition : Expr Reference) (body : Stmt Reference)
    {prior : List FieldEvent} {m : Machine} (reached : m.Reached prior) :
    Tells prior m (loop distances n condition body)
      (fieldTrace distances n (.loop condition body) m) Completion.Among := by
  match n with
  | 0 => exact .throw reached _
  | n + 1 =>
      refine (tells_evaluate n condition reached).bind fun value m' _ reached _ => ?_
      split
      · refine (tells_execute n body reached).bind fun completion m'' _ reached known => ?_
        cases completion with
        | normal => exact tells_loop n condition body reached
        | returned value => exact .pure reached known
      · exact .pure reached trivial

/-- A row of statements tells its trace. -/
theorem tells_executeAll (n : Nat) (stmts : List (Stmt Reference)) {prior : List FieldEvent}
    {m : Machine} (reached : m.Reached prior) : Tells prior m (executeAll distances n stmts)
      (fieldTrace distances n (.executeAll stmts) m) Completion.Among := by
  match n, stmts with
  | 0, _ => exact .throw reached _
  | n + 1, [] => exact .pure reached trivial
  | n + 1, first :: rest =>
      refine (tells_execute n first reached).bind fun completion m' _ reached known => ?_
      cases completion with
      | normal => exact tells_executeAll n rest reached
      | returned value => exact .pure reached known

end

/-! ## Texts and sessions -/

theorem tells_interpret (n : Nat) (program : List (Stmt Reference)) {prior : List FieldEvent}
    {m : Machine} (reached : m.Reached prior) : Tells prior m (interpret distances n program)
      (programTrace distances n program m) Whatever := by
  induction program generalizing prior m with
  | nil => exact .pure reached trivial
  | cons first rest ih =>
      exact (tells_execute n first reached).bind fun _ _ _ reached _ => ih reached

theorem tells_computation (entry : Entry) (n : Nat) (program : List (Stmt Reference))
    {prior : List FieldEvent} {m : Machine} (reached : m.Reached prior) :
    Tells prior m (entry.computation distances n program)
      (entry.trace distances n program m) Whatever := by
  unfold Entry.computation
  split
  · exact (tells_evaluate n _ reached).bind_silent fun value _ _ reached _ =>
      tells_print reached value
  · next other =>
      rw [Entry.trace_eq_programTrace other]
      exact tells_interpret n program reached

/-- On a machine that has not run anything there is nothing to record. -/
theorem Machine.reached_initial (console : Console) (clock : Clock) :
    (Machine.initial console clock).Reached [] := by
  have noField (identity : Nat) (name : String) :
      (Machine.initial console clock).field? identity name = none := by
    simp [Machine.field?, Machine.initial]
  refine ⟨fun before event after same => ?_, rfl, fun place object found => ?_, noField,
    fun id name value bound => ?_, fun identity name value held => ?_⟩
  · simp at same
  · cases found
  · rw [Machine.initial, FrameStore.bound?_push] at bound
    split at bound
    · rw [Bindings.getElem?_insert] at bound
      split at bound
      · cases bound
        trivial
      · simp at bound
    · simp [FrameStore.bound?, FrameStore.frame?] at bound
  · rw [noField] at held
    cases held

namespace Session

variable {session : Session} {prior : List FieldEvent}

/-- An entered text leads on to a machine that the trace records, whatever becomes of the
text. -/
theorem reached_enter (reached : session.machine.Reached prior) (allowance : Nat) (entry : Entry)
    (source : String) : (session.enter allowance entry source).1.machine.Reached
      (prior ++ session.enterTrace allowance entry source) := by
  rw [enterTrace]
  cases accepted : session.accepted? entry source with
  | none =>
      rw [(enter_rejected allowance accepted).2, List.append_nil]
      exact reached
  | some text =>
      have before : (session.analysed entry source).machine.Reached prior := reached
      rw [enter_accepted allowance accepted, machine_perform]
      exact (tells_computation entry allowance text.program before).reached

/-- Every trace leads to a machine that it records. -/
theorem reached_trace (reached : session.machine.Reached prior) (steps : List Step) :
    (session.after steps).machine.Reached (prior ++ session.trace steps) := by
  induction steps generalizing session prior with
  | nil => rwa [trace, List.append_nil]
  | cons step rest ih =>
      cases step with
      | clock clock => exact ih ⟨reached.chronicle, reached.records.congr rfl rfl⟩
      | enter allowance entry source =>
          rw [trace, ← List.append_assoc]
          exact ih (reached_enter reached allowance entry source)

end Session

end Lox
