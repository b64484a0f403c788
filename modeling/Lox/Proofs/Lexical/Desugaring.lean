/-
# Loops with clauses mean what they say

When an accepted text is run and comes to a loop with clauses, what is run is the tree
of blocks that the reader has made of it, with the distances of the analysis.  The loop
is also run directly, on a memory that mirrors the machine and with the names that are
in force around it, by an evaluator that has neither this tree nor distances.  Both end
alike (`Session.for_runs_directly`).

An allowance that suffices for one of them may be used up by the other one, for which
eight more are enough: the blocks of the tree need them, or the body behind them.  So
either both loops go on for ever or both end.
-/

import Lox.Proofs.Grammar.Program
import Lox.Proofs.Joining
import Lox.Proofs.Lexical.ForLoop
import Lox.Proofs.Lexical.Moments

namespace Lox

open Execution Analysis

/-- The value that a name has where the analysis is in these scopes: the one at the
distance of the name, or the global one. -/
def Machine.value? (machine : Machine) (analysis : Analysis) (name : String) : Option Value :=
  match analysis.distance? name with
  | some distance => machine.frames.getAt? machine.current distance name
  | none => machine.frames.get? Machine.globals name

namespace Lexical

variable {texts : List Text} {layout : Layout} {machine : Machine} {memory : Memory}
  {analysis : Analysis} {place : Place}

/-- Every name that can be seen from a place has values on the machine and on the memory
that mirror each other, or no value on either. -/
def SeesAlike (texts : List Text) (layout : Layout) (analysis : Analysis) (env : Env)
    (machine : Machine) (memory : Memory) : Prop :=
  ∀ name, Option.Rel (Value.Mirrors texts layout machine.frames) (machine.value? analysis name)
    (memory.find? env name)

/-- A statement on a machine and a loop on a memory ended alike: both fell through, both
returned, or both were stopped by the same interrupt.  In any case the memory mirrors
the machine, so the same was printed, and everything that can still be reached is the
same.  What stands behind the loop sees the same variables. -/
inductive EndsAlike (texts : List Text) (analysis : Analysis) (env : Env) :
    EStateM.Result Interrupt Machine Lox.Completion →
      EStateM.Result Interrupt Memory (Option Value) → Prop where
  | through {layout : Layout} {machine : Machine} {memory : Memory}
      (mirrors : machine.Mirrors texts layout memory)
      (sees : SeesAlike texts layout analysis env machine memory) :
      EndsAlike texts analysis env (.ok .normal machine) (.ok none memory)
  | returned {layout : Layout} {machine : Machine} {memory : Memory} {value : Lox.Value}
      {image : Value} (mirrors : machine.Mirrors texts layout memory)
      (sees : SeesAlike texts layout analysis env machine memory)
      (same : Value.Mirrors texts layout machine.frames value image) :
      EndsAlike texts analysis env (.ok (.returned value) machine) (.ok (some image) memory)
  | stopped {layout : Layout} {machine : Machine} {memory : Memory} (interrupt : Interrupt)
      (mirrors : machine.Mirrors texts layout memory) :
      EndsAlike texts analysis env (.error interrupt machine) (.error interrupt memory)

theorem Follows.endsAlike {scopes : List Scope} {computation : Execution Lox.Completion}
    {direct : Evaluation (Option Value)}
    (follows : Follows texts true layout computation machine (place.completion <$> direct) memory
      fun later frames => Ends texts later frames machine.current scopes)
    (fits : Matches layout machine.frames machine.current analysis.scopes place.env) :
    EndsAlike texts analysis place.env (computation machine) (direct memory) := by
  have mapped : (place.completion <$> direct) memory =
      EStateM.map place.completion direct memory := rfl
  rw [Follows, mapped, EStateM.map] at follows
  cases ran : direct memory with
  | ok returned memory' =>
      rw [ran] at follows
      cases ran' : computation machine with
      | ok completion machine' =>
          rw [ran'] at follows
          obtain ⟨later, extends', mirrors, ended⟩ := follows
          have sees : SeesAlike texts later analysis place.env machine' memory' :=
            rel_find? mirrors (extends'.fits fits)
          cases returned with
          | none =>
              cases ended
              exact .through mirrors sees
          | some image =>
              cases ended with
              | returned same => exact .returned mirrors sees same
      | error interrupt machine' =>
          rw [ran'] at follows
          exact follows.elim
  | error interrupt memory' =>
      rw [ran] at follows
      cases ran' : computation machine with
      | ok completion machine' =>
          rw [ran'] at follows
          exact follows.elim
      | error interrupt' machine' =>
          rw [ran'] at follows
          obtain ⟨rfl, later, mirrors⟩ := follows
          exact .stopped _ mirrors

theorem Follows.exhausted {α β : Type} {opens : Bool} {computation : Execution α}
    {image : Evaluation β} {related : Layout → FrameStore Lox.Value → α → β → Prop}
    (follows : Follows texts opens layout computation machine image memory related)
    (exhausted : Exhausted (image memory)) : Exhausted (computation machine) := by
  obtain ⟨later, ran⟩ := exhausted
  rw [Follows, ran] at follows
  cases ran' : computation machine with
  | ok value machine' =>
      rw [ran'] at follows
      exact follows.elim
  | error interrupt machine' =>
      rw [ran'] at follows
      obtain ⟨rfl, _⟩ := follows
      exact ⟨machine', rfl⟩

end Lexical

open Lexical (ForLoop Picture Exhausted EndsAlike)

variable {texts : List Text} {distances : Distances} {loop : ForLoop} {machine : Machine}
  {stmt : Stmt Reference}

namespace Lexical.Picture

/-- The tree of a loop on the machine of a picture, and the loop itself on its memory,
end alike.  What the one does with some allowance the other one does with eight more. -/
def RunsAlike (picture : Picture texts machine (.stmt stmt)) (distances : Distances)
    (loop : ForLoop) : Prop :=
  ∀ n,
    (Exhausted (Lox.execute distances n stmt machine) ∨
      EndsAlike texts picture.analysis picture.place.env (Lox.execute distances n stmt machine)
        (loop.run (n + 8) picture.place.env picture.memory)) ∧
    (Exhausted (loop.run n picture.place.env picture.memory) ∨
      EndsAlike texts picture.analysis picture.place.env
        (Lox.execute distances (n + 8) stmt machine)
        (loop.run n picture.place.env picture.memory))

theorem runsAlike (picture : Picture texts machine (.stmt stmt))
    (resolved : Resolved distances texts) (tree : stmt.unlabelled = loop.tree) :
    picture.RunsAlike distances loop := by
  have follows (n : Nat) :=
    tree ▸ follows_execute resolved n picture.visited picture.mirrors picture.stands
  intro n
  constructor
  · rcases loop.tree_below_run n picture.place picture.memory with exhausted | same
    · exact .inl ((follows n).exhausted exhausted)
    · exact .inr (((follows n).congr rfl same.symm).endsAlike picture.stands.fits)
  · rcases loop.run_below_tree n picture.place picture.memory with exhausted | same
    · exact .inl exhausted.of_map
    · exact .inr (((follows (n + 8)).congr rfl same).endsAlike picture.stands.fits)

end Lexical.Picture

namespace Session

variable {session : Session} {entry : Entry} {source : String} {text : Text}

/-- Wherever an accepted text comes to a loop with clauses, the tree that the reader has
made of the loop ends as the loop does when it is run directly.  It does so on every
memory that mirrors the machine there, and there is one. -/
theorem for_runs_directly {allowance n : Nat} {trailing : Bool} {opening : Token}
    {tokens rest : List Token} (history : session.History texts)
    (accepted : session.accepted? entry source = some text)
    (comes : session.ComesTo allowance entry source ⟨n, .execute stmt, machine⟩)
    (isFor : opening.kind = .keyword .forWord)
    (read : (statement trailing (opening :: tokens)).Clean stmt.unlabelled rest) :
    ∃ loop : ForLoop, loop.IsRead trailing tokens rest ∧ stmt.unlabelled = loop.tree ∧
      Nonempty (Picture (text :: texts) machine (.stmt stmt)) ∧
      ∀ picture : Picture (text :: texts) machine (.stmt stmt),
        picture.RunsAlike (session.analysed entry source).distances loop := by
  obtain ⟨loop, isRead, tree⟩ := ForLoop.exists_of_statement isFor read
  have resolved := (history.knows.accept accepted).kept
  exact ⟨loop, isRead, tree, history.pictured accepted comes, fun picture =>
    picture.runsAlike resolved tree⟩

/-- An accepted script that starts with a loop comes to this loop first. -/
theorem exists_comesTo_for {opening : Token} {tokens : List Token} (allowance : Nat)
    (quiet : session.errors .script source = [])
    (script : beforeEnd (tokensOf source) = opening :: tokens)
    (isFor : opening.kind = .keyword .forWord) :
    ∃ stmt rest,
      session.ComesTo allowance .script source ⟨allowance, .execute stmt, session.machine⟩ ∧
        (statement false (opening :: tokens)).Clean stmt.unlabelled rest := by
  have noErrors := (errors_eq_nil_iff.1 quiet).2.1
  have silent : (declarations false (opening :: tokens)).2 = [] := by
    rw [← script]
    exact Grammar.errors_ofTokens_eq_nil.1 noErrors
  have first : (declaration false opening tokens).notices = [] := by
    rw [declarations_cons] at silent
    exact (List.append_eq_nil_iff.1 silent).1
  obtain ⟨found, rest, clean⟩ :
      ∃ found rest, (declaration false opening tokens).Clean found rest := by
    rw [declaration] at first ⊢
    exact ⟨_, _, (Declarer.exists_clean_of_notices first).choose_spec⟩
  have read : (statement false (opening :: tokens)).Clean found rest := by
    rw [declaration, isFor] at clean
    exact Declarer.clean_ofReader.1 clean
  have listed : (Program.ofSource false source).statements =
      found :: (declarations false rest).1 := by
    show (declarations false (beforeEnd (tokensOf source))).1 = _
    rw [script, Grammar.declarations_of_clean clean]
  have unlabelled : Stmt.allUnlabelled (session.program .script source) =
      found :: (declarations false rest).1 :=
    (session.unlabelled_program .script source).trans listed
  cases program : session.program .script source with
  | nil =>
      rw [program] at unlabelled
      cases unlabelled
  | cons stmt others =>
      rw [program, Stmt.allUnlabelled] at unlabelled
      obtain ⟨same, _⟩ := List.cons.inj unlabelled
      refine ⟨stmt, rest, ⟨_, ?_, .refl⟩, same ▸ read⟩
      rw [program]
      exact .first

/-- A loop with all its clauses, with a function in its body that keeps the variable of
the loop. -/
def flagLoop : String :=
  "for(var a=true;a;a=false)\x7bfun f()\x7breturn a;\x7dprint f();\x7d"

theorem flagLoop_runs_directly : ∃ text stmt opening tokens rest,
    start.accepted? .script flagLoop = some text ∧
    start.ComesTo 100 .script flagLoop ⟨100, .execute stmt, start.machine⟩ ∧
    opening.kind = .keyword .forWord ∧
    (statement false (opening :: tokens)).Clean stmt.unlabelled rest ∧
    ∃ loop : ForLoop, loop.IsRead false tokens rest ∧ stmt.unlabelled = loop.tree ∧
      Nonempty (Picture [text] start.machine (.stmt stmt)) ∧
      ∀ picture : Picture [text] start.machine (.stmt stmt),
        picture.RunsAlike (start.analysed .script flagLoop).distances loop := by
  have empty : (start.errors .script flagLoop).isEmpty = true := by decide +kernel
  have quiet := List.isEmpty_iff.1 empty
  have accepted := accepted?_eq_some.2 ⟨quiet, rfl⟩
  have starts : (beforeEnd (tokensOf flagLoop)).head?.any (·.isKeyword .forWord) = true := by
    decide +kernel
  cases script : beforeEnd (tokensOf flagLoop) with
  | nil =>
      rw [script] at starts
      cases starts
  | cons opening tokens =>
      rw [script] at starts
      have isFor := Token.isKeyword_iff.1 starts
      obtain ⟨stmt, rest, comes, read⟩ := exists_comesTo_for 100 quiet script isFor
      exact ⟨_, stmt, opening, tokens, rest, accepted, comes, isFor, read,
        for_runs_directly (.start {} (.ticking 0)) accepted comes isFor read⟩

end Session

end Lox
