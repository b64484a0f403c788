/-
# A memory for every moment

The evaluator on memories follows the one on machines from the start of a text to its
end.  Here it is stopped at the moments in between.  Whatever is run, there is a memory
that mirrors the machine on which it starts, and names are in force that are laid out
along the frames that are open there (`Lexical.Picture`).

A moment hands this on to those that it asks for (`Moment.Pictured.ask`), so it is so at
every moment to which an accepted text comes (`Session.History.pictured`).
-/

import Lox.Proofs.Agreement.Session
import Lox.Proofs.Lexical.Session

namespace Lox

open Execution Analysis

namespace Lexical

variable {texts : List Text} {distances : Distances} {machine machine' : Machine}

/-- The outcome of a computation that has finished, on the memory. -/
theorem Follows.finished {α β : Type} {opens : Bool} {layout : Layout}
    {computation : Execution α} {image : Evaluation β} {memory : Memory}
    {related : Layout → FrameStore Lox.Value → α → β → Prop} {value : α}
    (follows : Follows texts opens layout computation machine image memory related)
    (ran : computation machine = .ok value machine') :
    ∃ value' memory' later, Extends opens layout machine later machine' ∧
      machine'.Mirrors texts later memory' ∧ related later machine'.frames value value' := by
  rw [Follows, ran] at follows
  cases ran' : image memory with
  | ok value' memory' =>
      rw [ran'] at follows
      obtain ⟨later, found⟩ := follows
      exact ⟨value', memory', later, found⟩
  | error interrupt memory' =>
      rw [ran'] at follows
      exact follows.elim

/-- A memory that mirrors a machine on which a part of a text is run, and the place
where the part stands: the names in force there are laid out along the open frames. -/
structure Picture (texts : List Text) (machine : Machine) (part : Part) where
  layout : Layout
  memory : Memory
  analysis : Analysis
  place : Place
  visited : Visited texts analysis part
  mirrors : machine.Mirrors texts layout memory
  stands : Stands layout machine.frames machine.current analysis.scopes place

namespace Picture

variable {part : Part}

/-- Another part that is run on the same machine and stands in the same scopes. -/
def move (picture : Picture texts machine part) {inner : Analysis} {piece : Part}
    (visited : Visited texts inner piece) (same : inner.scopes = picture.analysis.scopes) :
    Picture texts machine piece where
  layout := picture.layout
  memory := picture.memory
  analysis := inner
  place := picture.place
  visited := visited
  mirrors := picture.mirrors
  stands := same ▸ picture.stands

/-- What is run first, in the scopes of the whole. -/
def call (picture : Picture texts machine part) {piece : Part}
    (calls : picture.analysis.Calls part picture.analysis piece) : Picture texts machine piece :=
  picture.move (picture.visited.call calls) rfl

/-- What is run behind an expression, in the same scopes. -/
theorem behind {expr : Expr Reference} (picture : Picture texts machine (.expr expr))
    (resolved : Resolved distances texts) {n : Nat} {value : Lox.Value}
    (ran : Lox.evaluate distances n expr machine = .ok value machine') {inner : Analysis}
    {piece : Part} (visited : Visited texts inner piece)
    (same : inner.scopes = picture.analysis.scopes) :
    ∃ after : Picture texts machine' piece, after.analysis.scopes = picture.analysis.scopes := by
  obtain ⟨image, memory', later, extends', mirrors', _⟩ :=
    (follows_evaluate resolved n picture.visited picture.mirrors picture.stands.fits).finished ran
  have stands' := picture.stands.extend picture.mirrors.started extends'
  exact ⟨⟨later, memory', inner, picture.place, visited, mirrors', same ▸ stands'⟩, same⟩

/-- What is run behind a statement that falls through. -/
theorem behindStmt {stmt : Stmt Reference} (picture : Picture texts machine (.stmt stmt))
    (resolved : Resolved distances texts) {n : Nat}
    (ran : Lox.execute distances n stmt machine = .ok .normal machine') {inner : Analysis}
    {piece : Part} (visited : Visited texts inner piece)
    (same : inner.scopes = scopesBehind picture.analysis.scopes stmt) :
    Nonempty (Picture texts machine' piece) := by
  obtain ⟨completion, memory', later, extends', mirrors', ended⟩ :=
    (follows_execute resolved n picture.visited picture.mirrors picture.stands).finished ran
  rw [← extends'.keeps.current] at ended
  cases ended with
  | @normal place stands' =>
      exact ⟨⟨later, memory', inner, place, visited, mirrors', same ▸ stands'⟩⟩

end Picture

end Lexical

open Lexical (Layout Memory Matches Stands Picture)

variable {texts : List Text} {distances : Distances}

/-- There is a picture of what a task is about.  Where a value is called, there is a
memory with values that mirror it and its arguments. -/
def Task.Pictured (texts : List Text) (machine : Machine) : Task → Prop
  | .evaluate expr => Nonempty (Picture texts machine (.expr expr))
  | .evaluateAll exprs => Nonempty (Picture texts machine (.exprs exprs))
  | .call callee _ arguments => ∃ layout memory image images,
    machine.Mirrors texts layout memory ∧
      Value.Mirrors texts layout machine.frames callee image ∧
        List.Forall₂ (Value.Mirrors texts layout machine.frames) arguments images
  | .execute stmt => Nonempty (Picture texts machine (.stmt stmt))
  | .loop condition body => Nonempty (Picture texts machine (.stmt (.whileLoop condition body)))
  | .executeAll stmts => Nonempty (Picture texts machine (.stmts stmts))

/-- There is a picture of a moment. -/
def Moment.Pictured (texts : List Text) (moment : Moment) : Prop :=
  moment.task.Pictured texts moment.machine

/-- What a moment with a picture asks for has one too. -/
theorem Moment.Pictured.ask {first second : Moment} (pictured : first.Pictured texts)
    (resolved : Resolved distances texts) (asks : Moment.Asks distances first second) :
    second.Pictured texts := by
  cases asks with
  | @body n m closure paren arguments arity =>
      obtain ⟨layout, memory, image, images, mirrors, same, all⟩ := pictured
      cases same with
      | @function _ image same =>
          obtain ⟨identity, ⟨name, names, body⟩, home⟩ := closure
          obtain ⟨_, _, analysis, kind, visited, fits⟩ := same
          obtain ⟨inner, memory', later, _, _, _, entered, stands⟩ :=
            Lexical.parameters_stand visited mirrors fits all (all.length_eq.symm.trans arity)
          exact ⟨⟨later, memory', _, _, visited.call .body, entered, stands⟩⟩
  | @call n m m' m'' callee paren arguments value values ran ran' =>
      obtain ⟨picture⟩ := pictured
      have fits := picture.stands.fits
      obtain ⟨image, memory', later, extends', mirrors', same⟩ :=
        (Lexical.follows_evaluate resolved n (picture.visited.call .callee) picture.mirrors
          fits).finished ran
      have fits' := extends'.fits fits
      rw [← scopes_expr picture.analysis callee] at fits'
      obtain ⟨images, memory'', last, further, mirrors'', all⟩ :=
        (Lexical.follows_evaluateAll resolved n (picture.visited.call .arguments) mirrors'
          fits').finished ran'
      exact ⟨last, memory'', image, images, mirrors'', further.mirrors same, all⟩
  | right ran =>
      obtain ⟨picture⟩ := pictured
      exact ((picture.call .left).behind resolved ran (picture.visited.call .right)
        (scopes_expr _ _)).nonempty
  | second ran goesOn =>
      obtain ⟨picture⟩ := pictured
      exact ((picture.call .first).behind resolved ran (picture.visited.call .second)
        (scopes_expr _ _)).nonempty
  | arguments ran =>
      obtain ⟨picture⟩ := pictured
      exact ((picture.call .callee).behind resolved ran (picture.visited.call .arguments)
        (scopes_expr _ _)).nonempty
  | stored ran =>
      obtain ⟨picture⟩ := pictured
      have same := scopes_expr picture.analysis
      exact ((picture.move (picture.visited.call .owner) (same _)).behind resolved ran
        (picture.visited.call .stored) (same _).symm).nonempty
  | otherExprs ran =>
      obtain ⟨picture⟩ := pictured
      exact ((picture.call .firstExpr).behind resolved ran (picture.visited.call .otherExprs)
        (scopes_expr _ _)).nonempty
  | onTrue ran truthy =>
      obtain ⟨picture⟩ := pictured
      exact ((picture.call .condition).behind resolved ran (picture.visited.call .onTrue)
        (scopes_expr _ _)).nonempty
  | @onFalse n m m' condition onTrue onFalse value ran falsy =>
      obtain ⟨picture⟩ := pictured
      obtain ⟨_, ⟨shaped, noDeclaration⟩, _⟩ := picture.visited.shaped
      have same := (scopes_stmt (picture.analysis.expr condition) shaped).trans
        (scopesBehind_of_not_declaration _ noDeclaration)
      exact ((picture.call .condition).behind resolved ran (picture.visited.call .onFalse)
        (same.trans (scopes_expr _ _))).nonempty
  | round ran truthy =>
      obtain ⟨picture⟩ := pictured
      exact ((picture.call .guard).behind resolved ran (picture.visited.call .round)
        (scopes_expr _ _)).nonempty
  | again ran truthy ran' =>
      obtain ⟨picture⟩ := pictured
      obtain ⟨middle, same⟩ := (picture.call .guard).behind resolved ran
        (picture.visited.call .round) (scopes_expr _ _)
      have stays := scopesBehind_of_not_declaration middle.analysis.scopes
        picture.visited.shaped.2.2
      exact middle.behindStmt resolved ran' picture.visited (stays.trans same).symm
  | otherStmts ran =>
      obtain ⟨picture⟩ := pictured
      exact (picture.call .firstStmt).behindStmt resolved ran (picture.visited.call .otherStmts)
        (scopes_stmt _ picture.visited.shaped.1)
  | @block n m body =>
      obtain ⟨picture⟩ := pictured
      exact ⟨⟨picture.layout, picture.memory, _, _, picture.visited.call .block,
        picture.mirrors.push m.current {} m.frames.nextId,
        Lexical.block_stands picture.mirrors picture.stands⟩⟩
  | @initializer n m name initializer =>
      obtain ⟨picture⟩ := pictured
      obtain ⟨behind, memory', later, _, _, mirrors', stands⟩ :=
        Lexical.declare_stands name.lexeme picture.mirrors picture.stands
          fun _ _ => picture.visited.undeclared rfl
      rw [← scopes_declare] at stands
      exact ⟨⟨later, memory', _, behind, picture.visited.call .initializer, mirrors', stands⟩⟩
  | returned =>
      obtain ⟨picture⟩ := pictured
      exact ⟨picture.move (picture.visited.call .returned) (scopes_returning _ _)⟩
  | owner =>
      obtain ⟨picture⟩ := pictured
      exact ⟨picture.move (picture.visited.call .owner) (scopes_expr _ _)⟩
  | loop => exact pictured
  | inner =>
      obtain ⟨picture⟩ := pictured
      exact ⟨picture.call .inner⟩
  | operand =>
      obtain ⟨picture⟩ := pictured
      exact ⟨picture.call .operand⟩
  | left =>
      obtain ⟨picture⟩ := pictured
      exact ⟨picture.call .left⟩
  | first =>
      obtain ⟨picture⟩ := pictured
      exact ⟨picture.call .first⟩
  | value =>
      obtain ⟨picture⟩ := pictured
      exact ⟨picture.call .value⟩
  | callee =>
      obtain ⟨picture⟩ := pictured
      exact ⟨picture.call .callee⟩
  | object =>
      obtain ⟨picture⟩ := pictured
      exact ⟨picture.call .object⟩
  | firstExpr =>
      obtain ⟨picture⟩ := pictured
      exact ⟨picture.call .firstExpr⟩
  | expression =>
      obtain ⟨picture⟩ := pictured
      exact ⟨picture.call .expression⟩
  | print =>
      obtain ⟨picture⟩ := pictured
      exact ⟨picture.call .print⟩
  | condition =>
      obtain ⟨picture⟩ := pictured
      exact ⟨picture.call .condition⟩
  | guard =>
      obtain ⟨picture⟩ := pictured
      exact ⟨picture.call .guard⟩
  | firstStmt =>
      obtain ⟨picture⟩ := pictured
      exact ⟨picture.call .firstStmt⟩

/-- What a moment with a picture reaches has one too. -/
theorem Moment.Pictured.reach {first second : Moment} (pictured : first.Pictured texts)
    (resolved : Resolved distances texts) (reaches : first.Reaches distances second) :
    second.Pictured texts := by
  induction reaches with
  | refl => exact pictured
  | tail _ asks ih => exact ih.ask resolved asks

/-! ## Sessions -/

section Programs

variable {allowance : Nat} {program : List (Stmt Reference)} {analysis : Analysis}
  {layout : Layout} {memory : Memory} {m : Machine} {moment : Moment}

/-- A statement of a program that is run among the globals has a picture. -/
theorem Starts.pictured (starts : Starts distances allowance program m moment)
    (resolved : Resolved distances texts) (visited : Visited texts analysis (.stmts program))
    (top : analysis.scopes = []) (mirrors : m.Mirrors texts layout memory)
    (current : m.current = Machine.globals) : moment.Pictured texts := by
  induction starts generalizing analysis layout memory with
  | @first _ _ m =>
      have stands : Stands layout m.frames m.current analysis.scopes .top := top ▸ current
      exact ⟨⟨layout, memory, analysis, .top, visited.call .firstStmt, mirrors, stands⟩⟩
  | @later stmt _ m _ _ _ ran _ ih =>
      have stands : Stands layout m.frames m.current analysis.scopes .top := top ▸ current
      obtain ⟨_, memory', later, extends', mirrors', _⟩ :=
        (Lexical.follows_execute resolved allowance (visited.call .firstStmt) mirrors
          stands).finished ran
      exact ih (visited.call .otherStmts) (scopes_top (visited.call .firstStmt) top) mirrors'
        (extends'.keeps.current.trans current)

theorem Entry.Starts.pictured {entry : Entry}
    (starts : entry.Starts distances allowance program m moment)
    (resolved : Resolved distances texts) (visited : Visited texts analysis (.stmts program))
    (top : analysis.scopes = []) (mirrors : m.Mirrors texts layout memory)
    (current : m.current = Machine.globals) : moment.Pictured texts := by
  unfold Entry.Starts at starts
  split at starts
  · next expr =>
      rw [starts]
      have stands : Stands layout m.frames m.current analysis.scopes .top := top ▸ current
      exact ⟨⟨layout, memory, analysis, .top, (visited.call .firstStmt).call .expression, mirrors,
        stands⟩⟩
  · exact Lox.Starts.pictured starts resolved visited top mirrors current

end Programs

namespace Session

variable {session : Session} {entry : Entry} {source : String} {text : Text}

/-- Between the texts that a session accepted there is a memory that mirrors its
machine, for just these texts. -/
theorem History.mirrored (history : session.History texts) :
    ∃ layout memory, session.machine.Mirrors texts layout memory := by
  induction history with
  | start limits clock => exact ⟨_, _, Machine.Mirrors.initial _ clock⟩
  | withClock _ clock ih =>
      obtain ⟨layout, memory, mirrors⟩ := ih
      exact ⟨layout, { memory with clock := clock }, { mirrors with clock := rfl }⟩
  | @enter session _ history allowance entry source ih =>
      obtain ⟨layout, memory, mirrors⟩ := ih
      cases accepted : session.accepted? entry source with
      | none =>
          rw [(enter_rejected allowance accepted).2]
          exact ⟨layout, memory, mirrors⟩
      | some text =>
          obtain ⟨_, later, mirrors'⟩ :=
            Lexical.run_spec history.knows history.current mirrors accepted allowance
          exact ⟨later, _, mirrors'⟩

/-- Every moment to which a session comes in an accepted text has a picture. -/
theorem History.pictured {allowance : Nat} {moment : Moment} (history : session.History texts)
    (accepted : session.accepted? entry source = some text)
    (comes : session.ComesTo allowance entry source moment) : moment.Pictured (text :: texts) := by
  obtain ⟨first, starts, reaches⟩ := comes
  obtain ⟨layout, memory, mirrors⟩ := history.mirrored
  have knows := history.knows.accept accepted
  have known := mirrors.known fun _ => List.mem_cons_of_mem text
  have visited := knows.visited List.mem_cons_self
  have resolved := knows.kept
  obtain ⟨_, rfl⟩ := accepted?_eq_some.1 accepted
  exact (starts.pictured resolved visited rfl known history.current).reach resolved reaches

end Session

end Lox
