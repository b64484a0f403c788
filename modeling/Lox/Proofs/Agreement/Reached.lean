/-
# Frames and scopes agree whenever something runs

What a sound machine is asked to run stands in the scopes with which its frames
agree (`Task.Ready`).  This is so at every moment that a run reaches, because
one moment hands it on to those that it asks for (`Moment.Good.ask`).

Where it is so, a variable that has a distance is found, and so is one that is
assigned, unless its own initializer assigns it.
-/

import Lox.Proofs.Agreement.Run

namespace Lox

open Execution Analysis

variable {texts : List Text} {distances : Distances}

/-- The analysis has arrived at a part in scopes with which the frames agree. -/
def Part.InScope (texts : List Text) (machine : Machine) (part : Part) : Prop :=
  ∃ analysis, Visited texts analysis part ∧
    Agrees machine.frames machine.current analysis.scopes

/-- The part of a text that a task is about, unless it is a call of a value. -/
def Task.part? : Task → Option Part
  | .evaluate expr => some (.expr expr)
  | .evaluateAll exprs => some (.exprs exprs)
  | .call _ _ _ => none
  | .execute stmt => some (.stmt stmt)
  | .loop condition body => some (.stmt (.whileLoop condition body))
  | .executeAll stmts => some (.stmts stmts)

/-- What a task is about stands in scopes that agree with the frames, or is a
call of a sound value with sound arguments. -/
def Task.Ready (texts : List Text) (machine : Machine) : Task → Prop
  | .call callee _ arguments => Value.Sound texts machine.frames callee ∧
      ∀ value ∈ arguments, Value.Sound texts machine.frames value
  | .evaluate expr => Part.InScope texts machine (.expr expr)
  | .evaluateAll exprs => Part.InScope texts machine (.exprs exprs)
  | .execute stmt => Part.InScope texts machine (.stmt stmt)
  | .loop condition body => Part.InScope texts machine (.stmt (.whileLoop condition body))
  | .executeAll stmts => Part.InScope texts machine (.stmts stmts)

theorem Task.Ready.inScope {machine : Machine} {task : Task} {part : Part}
    (ready : task.Ready texts machine) (about : task.part? = some part) :
    part.InScope texts machine := by
  cases task with
  | call => cases about
  | _ =>
      cases about
      exact ready

/-- A task that is ready, on a sound machine. -/
structure Moment.Good (texts : List Text) (moment : Moment) : Prop where
  sound : moment.machine.Sound texts
  ready : moment.task.Ready texts moment.machine

/-- What holds behind an expression that was evaluated. -/
theorem Visited.evaluated {n : Nat} {m m' : Machine} {expr : Expr Reference} {value : Value}
    {analysis : Analysis} (visited : Visited texts analysis (.expr expr)) (sound : m.Sound texts)
    (agrees : Agrees m.frames m.current analysis.scopes)
    (ran : evaluate distances n expr m = .ok value m') :
    m'.Sound texts ∧ Value.Sound texts m'.frames value ∧
      Agrees m'.frames m'.current (analysis.expr expr).scopes ∧
      Agrees m'.frames m'.current analysis.scopes := by
  have ⟨sound', good⟩ := (soundly_evaluate n visited sound agrees).finished ran
  have agrees' := ((stays_evaluate n expr m).finished ran).agrees agrees
  exact ⟨sound', good, scopes_expr analysis expr ▸ agrees', agrees'⟩

/-- A good moment asks for good ones. -/
theorem Moment.Good.ask {first second : Moment} (good : first.Good texts)
    (asks : Moment.Asks distances first second) : second.Good texts := by
  obtain ⟨sound, ready⟩ := good
  cases asks with
  | @body _ _ closure _ _ arity =>
      obtain ⟨⟨analysis, kind, visited, agrees⟩, goods⟩ := ready
      obtain ⟨identity, ⟨name, names, body⟩, home⟩ := closure
      have entered : (Analysis.enter { analysis with inFunction := some kind }).scopes =
          ({} : Scope) :: analysis.scopes := rfl
      obtain ⟨scope, inner, held⟩ := scopes_parameters entered names
      refine ⟨sound.entering _ (fun name value found => ?_) _, _, visited.call .body, ?_⟩
      · exact goods value (mem_of_argumentBindings found)
      · rw [enterFunction, inner]
        refine agrees.push sound.started fun name found => ?_
        rw [held name] at found
        split at found
        · next member => exact isSome_argumentBindings arity member
        · simp at found
  | call ran ran' =>
      obtain ⟨analysis, visited, agrees⟩ := ready
      have ⟨sound, good, agrees, _⟩ := (visited.call .callee).evaluated sound agrees ran
      have ⟨sound', goods⟩ :=
        (soundly_evaluateAll _ (visited.call .arguments) sound agrees).finished ran'
      exact ⟨sound', good.mono ((stays_evaluateAll _ _ _).finished ran').frames, goods⟩
  | right ran =>
      obtain ⟨analysis, visited, agrees⟩ := ready
      have ⟨sound, _, agrees, _⟩ := (visited.call .left).evaluated sound agrees ran
      exact ⟨sound, _, visited.call .right, agrees⟩
  | second ran goesOn =>
      obtain ⟨analysis, visited, agrees⟩ := ready
      have ⟨sound, _, agrees, _⟩ := (visited.call .first).evaluated sound agrees ran
      exact ⟨sound, _, visited.call .second, agrees⟩
  | arguments ran =>
      obtain ⟨analysis, visited, agrees⟩ := ready
      have ⟨sound, _, agrees, _⟩ := (visited.call .callee).evaluated sound agrees ran
      exact ⟨sound, _, visited.call .arguments, agrees⟩
  | stored ran =>
      obtain ⟨analysis, visited, agrees⟩ := ready
      have ⟨sound, _, _, agrees⟩ :=
        (visited.call .owner).evaluated sound (by rwa [scopes_expr]) ran
      rw [scopes_expr] at agrees
      exact ⟨sound, _, visited.call .stored, agrees⟩
  | otherExprs ran =>
      obtain ⟨analysis, visited, agrees⟩ := ready
      have ⟨sound, _, agrees, _⟩ := (visited.call .firstExpr).evaluated sound agrees ran
      exact ⟨sound, _, visited.call .otherExprs, agrees⟩
  | onTrue ran truthy =>
      obtain ⟨analysis, visited, agrees⟩ := ready
      have ⟨sound, _, agrees, _⟩ := (visited.call .condition).evaluated sound agrees ran
      exact ⟨sound, _, visited.call .onTrue, agrees⟩
  | @onFalse _ _ _ condition _ _ _ ran falsy =>
      obtain ⟨analysis, visited, agrees⟩ := ready
      have ⟨sound, _, agrees, _⟩ := (visited.call .condition).evaluated sound agrees ran
      obtain ⟨_, ⟨shaped, noDeclaration⟩, _⟩ := visited.shaped
      have same := (scopes_stmt (analysis.expr condition) shaped).trans
        (scopesBehind_of_not_declaration _ noDeclaration)
      exact ⟨sound, _, visited.call .onFalse, same ▸ agrees⟩
  | round ran truthy =>
      obtain ⟨analysis, visited, agrees⟩ := ready
      have ⟨sound, _, agrees, _⟩ := (visited.call .guard).evaluated sound agrees ran
      exact ⟨sound, _, visited.call .round, agrees⟩
  | again ran truthy ran' =>
      obtain ⟨analysis, visited, agrees⟩ := ready
      have ⟨sound, _, inside, _⟩ := (visited.call .guard).evaluated sound agrees ran
      have ⟨sound, behind⟩ := (soundly_execute _ (visited.call .round) sound inside).finished ran'
      rw [scopes_expr, scopesBehind_of_not_declaration _ visited.shaped.2.2] at behind
      exact ⟨sound, analysis, visited, behind⟩
  | otherStmts ran =>
      obtain ⟨analysis, visited, agrees⟩ := ready
      have ⟨sound, behind⟩ :=
        (soundly_execute _ (visited.call .firstStmt) sound agrees).finished ran
      have same := scopes_stmt analysis visited.shaped.1
      exact ⟨sound, _, visited.call .otherStmts, same ▸ behind⟩
  | block =>
      obtain ⟨analysis, visited, agrees⟩ := ready
      refine ⟨sound.entering _ (fun name value bound => ?_) _, _, visited.call .block,
        agrees.push sound.started fun name held => ?_⟩
      · simp at bound
      · simp at held
  | initializer =>
      obtain ⟨analysis, visited, agrees⟩ := ready
      have inside := agrees.declare
      exact ⟨sound, _, visited.call .initializer, scopes_declare analysis _ ▸ inside _⟩
  | returned =>
      obtain ⟨analysis, visited, agrees⟩ := ready
      exact ⟨sound, _, visited.call .returned, scopes_returning analysis _ ▸ agrees⟩
  | owner =>
      obtain ⟨analysis, visited, agrees⟩ := ready
      exact ⟨sound, _, visited.call .owner, scopes_expr analysis _ ▸ agrees⟩
  | inner =>
      obtain ⟨analysis, visited, agrees⟩ := ready
      exact ⟨sound, analysis, visited.call .inner, agrees⟩
  | operand =>
      obtain ⟨analysis, visited, agrees⟩ := ready
      exact ⟨sound, analysis, visited.call .operand, agrees⟩
  | left =>
      obtain ⟨analysis, visited, agrees⟩ := ready
      exact ⟨sound, analysis, visited.call .left, agrees⟩
  | first =>
      obtain ⟨analysis, visited, agrees⟩ := ready
      exact ⟨sound, analysis, visited.call .first, agrees⟩
  | value =>
      obtain ⟨analysis, visited, agrees⟩ := ready
      exact ⟨sound, analysis, visited.call .value, agrees⟩
  | callee =>
      obtain ⟨analysis, visited, agrees⟩ := ready
      exact ⟨sound, analysis, visited.call .callee, agrees⟩
  | object =>
      obtain ⟨analysis, visited, agrees⟩ := ready
      exact ⟨sound, analysis, visited.call .object, agrees⟩
  | firstExpr =>
      obtain ⟨analysis, visited, agrees⟩ := ready
      exact ⟨sound, analysis, visited.call .firstExpr, agrees⟩
  | expression =>
      obtain ⟨analysis, visited, agrees⟩ := ready
      exact ⟨sound, analysis, visited.call .expression, agrees⟩
  | print =>
      obtain ⟨analysis, visited, agrees⟩ := ready
      exact ⟨sound, analysis, visited.call .print, agrees⟩
  | condition =>
      obtain ⟨analysis, visited, agrees⟩ := ready
      exact ⟨sound, analysis, visited.call .condition, agrees⟩
  | loop => exact ⟨sound, ready⟩
  | guard =>
      obtain ⟨analysis, visited, agrees⟩ := ready
      exact ⟨sound, analysis, visited.call .guard, agrees⟩
  | firstStmt =>
      obtain ⟨analysis, visited, agrees⟩ := ready
      exact ⟨sound, analysis, visited.call .firstStmt, agrees⟩

/-! ## What is found -/

/-- An assignment stands inside the initializer of a local variable, and it is
this variable that it assigns. -/
def AssignsOwnInitializer (distances : Distances) (texts : List Text) (reference : Reference)
    (name : Token) (value : Expr Reference) : Prop :=
  ∃ text ∈ texts, ∃ declaring token initializer,
    text.Visits declaring (.stmt (.varDecl token (some initializer))) ∧ declaring.scopes ≠ [] ∧
      .assign reference name value ∈ initializer.nodes ∧ token.lexeme = name.lexeme ∧
        distances[reference]? = some 0

variable {analysis : Analysis} {machine : Machine} {reference : Reference} {distance : Nat}

theorem lookUp_of_agrees {scope : Scope} {name : Token}
    (agrees : Agrees machine.frames machine.current analysis.scopes)
    (found : analysis.scopes[distance]? = some scope) (held : scope[name.lexeme]? = some true) :
    ∃ value, lookUp (some distance) name machine = .ok value machine := by
  obtain ⟨frame, reached, _, bound⟩ := agrees.ancestor? found
  obtain ⟨value, same⟩ := FrameStore.binds_iff.1 (bound name.lexeme held)
  have here : machine.frames.getAt? machine.current distance name.lexeme = some value := by
    rw [FrameStore.getAt?, reached]
    exact same
  refine ⟨value, ?_⟩
  rw [lookUp, get_bind_apply]
  dsimp only
  rw [here]
  rfl

theorem assign_of_agrees {scope : Scope} {name : Token} (value : Value)
    (agrees : Agrees machine.frames machine.current analysis.scopes)
    (found : analysis.scopes[distance]? = some scope) (held : scope[name.lexeme]? = some true) :
    ∃ later, assign (some distance) name value machine = .ok () later := by
  obtain ⟨frame, reached, _, bound⟩ := agrees.ancestor? found
  have here : machine.frames.binderAt? machine.current distance name.lexeme = some frame := by
    rw [FrameStore.binderAt?, reached, Option.filter_some, if_pos (bound name.lexeme held)]
  refine ⟨{ machine with frames := machine.frames.define frame name.lexeme value }, ?_⟩
  rw [assign, get_bind_apply]
  dsimp only
  rw [here]
  rfl

/-- A variable with a distance is found. -/
theorem lookUp_variable {name : Token} (resolved : Resolved distances texts)
    (visited : Visited texts analysis (.expr (.variable reference name)))
    (agrees : Agrees machine.frames machine.current analysis.scopes)
    (recorded : distances[reference]? = some distance) :
    ∃ value, lookUp (some distance) name machine = .ok value machine := by
  rw [visited.distance_variable resolved] at recorded
  obtain ⟨text, listed, accepted, visits⟩ := visited
  have initialized := (visits.variable accepted).1
  rcases visits.initialized accepted recorded with ⟨scope, found, held⟩ | ⟨_, unset, _⟩
  · exact lookUp_of_agrees agrees found held
  · rw [initialized] at unset
    cases unset

/-- Where `this` has a distance, it is found. -/
theorem lookUp_this {keyword : Token} (resolved : Resolved distances texts)
    (visited : Visited texts analysis (.expr (.this reference keyword)))
    (agrees : Agrees machine.frames machine.current analysis.scopes)
    (recorded : distances[reference]? = some distance) :
    ∃ value, lookUp (some distance) keyword machine = .ok value machine := by
  rw [visited.distance_this resolved] at recorded
  obtain ⟨text, listed, accepted, visits⟩ := visited
  rcases visits.initialized accepted recorded with
    ⟨scope, found, held⟩ | ⟨_, _, token, initializer, ⟨declaring, declares, _⟩, _, same⟩
  · exact lookUp_of_agrees agrees found held
  · -- The name of a variable is not spelled like the keyword.
    obtain ⟨spelled, isName⟩ := (declares.arrives accepted).shaped.1
    obtain ⟨spelled', isThis⟩ := (visits.arrives accepted).shaped
    have none := spelled.ofSpelling?_lexeme isName
    rw [same, spelled'.lexeme_eq_of_keyword isThis] at none
    cases none

/-- A variable with a distance can be assigned, except inside its own
initializer. -/
theorem assign_visited {name : Token} {expr : Expr Reference} (resolved : Resolved distances texts)
    (visited : Visited texts analysis (.expr (.assign reference name expr))) (value : Value)
    (agrees : Agrees machine.frames machine.current analysis.scopes)
    (recorded : distances[reference]? = some distance) :
    (∃ later, assign (some distance) name value machine = .ok () later) ∨
      AssignsOwnInitializer distances texts reference name expr := by
  have same := visited.distance_assign resolved
  rw [same] at recorded
  obtain ⟨text, listed, accepted, visits⟩ := visited
  rcases visits.initialized accepted recorded with
    ⟨scope, found, held⟩ |
      ⟨zero, _, token, initializer, ⟨declaring, declares, inside, _⟩, within, own⟩
  · exact .inl (assign_of_agrees value agrees found held)
  · refine .inr ⟨text, listed, declaring, token, initializer, declares, inside, within ?_, own, ?_⟩
    · exact Expr.mem_nodes_self _
    · rw [same, recorded, zero]

/-- A good moment misses nothing that has a distance, except where a variable is
assigned inside its own initializer. -/
theorem Moment.Good.misses {moment : Moment} {token : Token} (good : moment.Good texts)
    (resolved : Resolved distances texts) (misses : moment.Misses distances reference token) :
    distances[reference]? = none ∨ ∃ expr, moment.task = .evaluate (.assign reference token expr) ∧
      AssignsOwnInitializer distances texts reference token expr := by
  obtain ⟨sound, ready⟩ := good
  cases recorded : distances[reference]? with
  | none => exact .inl rfl
  | some distance =>
      right
      cases misses with
      | named missing =>
          obtain ⟨analysis, visited, agrees⟩ := ready
          obtain ⟨value, found⟩ := lookUp_variable resolved visited agrees recorded
          rw [recorded, found] at missing
          cases missing
      | receiver missing =>
          obtain ⟨analysis, visited, agrees⟩ := ready
          obtain ⟨value, found⟩ := lookUp_this resolved visited agrees recorded
          rw [recorded, found] at missing
          cases missing
      | @assigned _ _ _ _ _ _ expr value ran missing =>
          obtain ⟨analysis, visited, agrees⟩ := ready
          obtain ⟨_, _, _, agrees⟩ := (visited.call .value).evaluated sound agrees ran
          rcases assign_visited resolved visited value agrees recorded with ⟨later, found⟩ | own
          · rw [recorded, found] at missing
            cases missing
          · exact ⟨expr, rfl, own⟩

end Lox
