/-
# Scripts one below the other

A script is a text that every session accepts (`Script`).  With a newline between
them, two scripts are a script again: its statements are those of the first one and
then those of the second one, on lines so much further down (`Script.below`).  An
`else` at the front of the second text cannot become part of the first one, because
no script starts with it.
-/

import Lox.Proofs.Context
import Lox.Proofs.Seam
import Lox.Proofs.Verdict

namespace Lox

/-- A text has no errors if none of the stages finds one. -/
theorem Session.errors_eq_nil_iff {session : Session} {entry : Entry} {source : String} :
    session.errors entry source = [] ↔ lexicalErrorsOf source = [] ∧
      (Program.ofSource (entry = .line) source).errors = [] ∧
        (session.text entry source).last.errors = [] := by
  rw [← and_assoc, ← List.append_eq_nil_iff, errors]
  cases lexicalErrorsOf source ++ (Program.ofSource (entry = .line) source).errors with
  | nil => exact (and_iff_right rfl).symm
  | cons first more => simp

/-- A text without errors that is read as these statements. -/
structure Script (source : String) (program : List (Stmt Unit)) : Prop where
  lexical : lexicalErrorsOf source = []
  tree : Grammar.ProgramTree (beforeEnd (tokensOf source)) program
  /-- There are no errors on whatever lines the tokens stand, and with any labels. -/
  scopes : ∀ known f labelled, Stmt.allUnlabelled labelled = Stmt.allRelined f program →
    (Analysis.stmts { distances := known } labelled).errors = []

namespace Script

variable {source first second : String} {program more : List (Stmt Unit)}

theorem statements_eq (script : Script source program) :
    (Program.ofSource false source).statements = program :=
  congrArg Prod.fst (script.tree.declarations_eq false)

/-- Every session accepts a script. -/
theorem errors_eq_nil (script : Script source program) (session : Session) :
    session.errors .script source = [] := by
  have quiet := Grammar.errors_ofTokens_eq_nil.2
    (congrArg Prod.snd (script.tree.declarations_eq false))
  have read := (session.unlabelled_program .script source).trans script.statements_eq
  rw [← Stmt.allRelined_id program] at read
  exact Session.errors_eq_nil_iff.2 ⟨script.lexical, quiet, script.scopes _ id _ read⟩

/-- What a session accepts is a script. -/
theorem of_errors_eq_nil {session : Session} (accepted : session.errors .script source = []) :
    Script source (Program.ofSource false source).statements := by
  obtain ⟨lexical, quiet, noErrors⟩ := Session.errors_eq_nil_iff.1 accepted
  refine ⟨lexical, Grammar.programTree_of_quiet (Grammar.errors_ofTokens_eq_nil.1 quiet),
    fun known f labelled same => ?_⟩
  have read : Stmt.allUnlabelled (session.program .script source) =
      (Program.ofSource false source).statements := session.unlabelled_program .script source
  rw [← read] at same
  rw [Analysis.errors_stmts session.distances known same]
  exact List.map_eq_nil_iff.2 noErrors

/-- A script below another one, with a newline between them. -/
theorem below (upper : Script first program) (lower : Script second more) :
    Script (first ++ "\n" ++ second)
      (program ++ Stmt.allRelined (· + lineCount first) more) := by
  refine ⟨?_, ?_, fun known f labelled same => ?_⟩
  · rw [lexicalErrorsOf_newline upper.lexical, lower.lexical, List.map_nil]
  · rw [tokens_newline upper.lexical]
    exact upper.tree.append (lower.tree.relined _)
  · rw [Stmt.allUnlabelled_eq_map, Stmt.allRelined_append, Stmt.allRelined_allRelined,
      List.map_eq_append_iff] at same
    obtain ⟨above, behind, rfl, isAbove, isBehind⟩ := same
    rw [← Stmt.allUnlabelled_eq_map] at isAbove isBehind
    rw [Analysis.stmts_append]
    -- Behind the first text the analysis is at the top level again.
    have context := Analysis.InContext.stmts { distances := known } above
    have noErrors := upper.scopes known f above isAbove
    generalize Analysis.stmts _ above = analysis at context noErrors ⊢
    have top : analysis = { distances := analysis.distances } := by
      obtain ⟨scopes, inFunction, inClass, distances, errors⟩ := analysis
      obtain ⟨height, rfl, rfl⟩ := context
      cases List.eq_nil_of_length_eq_zero height
      cases noErrors
      rfl
    rw [top]
    exact lower.scopes _ _ behind isBehind

/-- A script below blank lines. -/
theorem belowBlankLines (script : Script source program) (count : Nat) :
    Script (blankLines count ++ source) (Stmt.allRelined (· + count) program) := by
  refine ⟨?_, ?_, fun known f labelled same => ?_⟩
  · rw [lexicalErrorsOf_blankLines, script.lexical, List.map_nil]
  · rw [tokens_blankLines]
    exact script.tree.relined _
  · rw [Stmt.allRelined_allRelined] at same
    exact script.scopes known _ labelled same

end Script

end Lox
