/-
# Programs are read exactly as the grammar says

The reading of a whole program skips over what it cannot read and goes on, so
that it always returns statements.  This module shows that it notices nothing
exactly for the rows of tokens that the grammar derives as programs, and that
its statements are then the only ones whose trees these are.

Only the mode without trailing expressions is meant where nothing is noticed: in
the other one a last semicolon may be missing.  What the grammar derives is read in
both modes, and also in front of other tokens, if these do not start with `else`.
-/

import Lox.Proofs.Grammar.Completeness.Statement
import Lox.Proofs.Grammar.Trees

namespace Lox.Grammar

open Reader

/-- A declaration in front that is read cleanly is the first of the program. -/
theorem declarations_of_clean {trailing : Bool} {first : Token} {tokens rest : List Token}
    {stmt : Stmt Unit} (clean : (declaration trailing first tokens).Clean stmt rest) :
    declarations trailing (first :: tokens) =
      (stmt :: (declarations trailing rest).1, (declarations trailing rest).2) := by
  obtain ⟨found, quiet, left⟩ := clean
  rw [declarations_cons, found, quiet, left]
  rfl

/-- A declaration in front of a program makes a longer program. -/
theorem ProgramTree.cons {used tokens : List Token} {stmt : Stmt Unit} {dangling : Bool}
    {statements : List (Stmt Unit)} (first : Statement .declaration used stmt dangling)
    (others : ProgramTree tokens statements) :
    ProgramTree (used ++ tokens) (stmt :: statements) := by
  obtain ⟨body, derived, rfl, rfl⟩ := others
  exact ⟨(used, stmt, dangling) :: body, List.forall_mem_cons.2 ⟨first, derived⟩, rfl, rfl⟩

/-- If nothing is noticed, a tree of the tokens has been read. -/
theorem programTree_of_quiet {tokens : List Token} (quiet : (declarations false tokens).2 = []) :
    ProgramTree tokens (declarations false tokens).1 := by
  match tokens, quiet with
  | [], quiet =>
      rw [declarations_nil]
      exact ⟨[], by simp, rfl, rfl⟩
  | first :: tokens, quiet =>
      have silent : (declaration false first tokens).notices = [] := by
        rw [declarations_cons] at quiet
        exact (List.append_eq_nil_iff.1 quiet).1
      obtain ⟨stmt, clean⟩ : ∃ stmt, (declaration false first tokens).Clean stmt
          (declaration false first tokens).rest := by
        rw [declaration] at silent ⊢
        exact Declarer.exists_clean_of_notices silent
      have shorter := (declaration false first tokens).shorter
      have whole := declarations_of_clean clean
      rw [whole] at quiet ⊢
      obtain ⟨used, dangling, same, derived⟩ := declaration_of_clean clean
      rw [same]
      exact .cons derived (programTree_of_quiet quiet)
termination_by tokens.length

/-- A row of tokens with a tree is read as it in front of other tokens that do not
start with `else`, and behind it the reading goes on with these. -/
theorem ProgramTree.declarations_append {tokens : List Token} {statements : List (Stmt Unit)}
    (tree : ProgramTree tokens statements) (trailing : Bool) {rest : List Token}
    (noElse : NoElse rest) :
    declarations trailing (tokens ++ rest) =
      (statements ++ (declarations trailing rest).1, (declarations trailing rest).2) := by
  obtain ⟨body, derived, rfl, rfl⟩ := tree
  induction body with
  | nil => rfl
  | cons row body ih =>
      obtain ⟨first, more, same, reads⟩ := (derived row List.mem_cons_self).reads
      have further : Body.Declarations body :=
        fun other member => derived other (List.mem_cons_of_mem _ member)
      have one := reads (Body.tokens body ++ rest) fun _ => further.noElse body noElse
      have clean : declarations trailing (first :: (more ++ (Body.tokens body ++ rest))) =
          (row.2.1 :: (declarations trailing (Body.tokens body ++ rest)).1,
            (declarations trailing (Body.tokens body ++ rest)).2) := declarations_of_clean one
      rw [Body.tokens, ih further] at clean
      rw [List.map_cons, List.flatten_cons, same, List.append_assoc, List.cons_append, clean]
      rfl

/-- A row of tokens with a tree is read as it, and nothing is noticed. -/
theorem ProgramTree.declarations_eq {tokens : List Token} {statements : List (Stmt Unit)}
    (tree : ProgramTree tokens statements) (trailing : Bool) :
    declarations trailing tokens = (statements, []) := by
  have noElse : NoElse [] := by simp [NoElse]
  have whole := tree.declarations_append trailing noElse
  rwa [List.append_nil, declarations_nil, List.append_nil] at whole

/-- The trees of a program are what is read if nothing is noticed. -/
theorem programTree_iff {tokens : List Token} {statements : List (Stmt Unit)} :
    ProgramTree tokens statements ↔ declarations false tokens = (statements, []) := by
  constructor
  · exact fun tree => tree.declarations_eq false
  · intro read
    have tree := programTree_of_quiet (congrArg Prod.snd read)
    rwa [read] at tree

theorem errors_ofTokens_eq_nil {tokens : List Token} :
    (Program.ofTokens false tokens).errors = [] ↔
      (declarations false (beforeEnd tokens)).2 = [] := by
  simp [Program.ofTokens_eq]

/-- Reading a program accepts exactly the grammar.  There is no error if and
only if the tokens in front of the first end mark are derived as a program,
and then the statements that were read are the one tree of these tokens; if
there is an error, the tokens have no tree. -/
theorem ofTokens_accepts_grammar (tokens : List Token) :
    ((Program.ofTokens false tokens).errors = [] ↔
      Derives (.part .program) (beforeEnd tokens)) ∧
    ∀ statements, ProgramTree (beforeEnd tokens) statements ↔
      (Program.ofTokens false tokens).errors = [] ∧
        statements = (Program.ofTokens false tokens).statements := by
  have trees (statements : List (Stmt Unit)) : ProgramTree (beforeEnd tokens) statements ↔
      (Program.ofTokens false tokens).errors = [] ∧
        statements = (Program.ofTokens false tokens).statements := by
    rw [programTree_iff, errors_ofTokens_eq_nil, Prod.ext_iff]
    constructor
    · rintro ⟨same, quiet⟩
      exact ⟨quiet, same.symm⟩
    · rintro ⟨quiet, same⟩
      exact ⟨same.symm, quiet⟩
  refine ⟨?_, trees⟩
  rw [derives_program_iff]
  constructor
  · exact fun quiet => ⟨_, (trees _).2 ⟨quiet, rfl⟩⟩
  · rintro ⟨statements, tree⟩
    exact ((trees statements).1 tree).1

end Lox.Grammar
