/-
# A program in front of other tokens

A row of tokens that is read without an error is a finished program: the reading of
other tokens behind it starts afresh.  The statements are those of the first row and
then those of the second one, and every error is an error of the second row alone,
however faulty this row is.

Only an `else` at the front of the second row is not left to it, because a
conditional at the end of the first row takes it.  The line on which the input ends
is that of the second row, so that this row must not be empty.
-/

import Lox.Proofs.Cursor
import Lox.Proofs.Grammar.Program
import Lox.Proofs.Seam

namespace Lox

/-- Tokens end on the line on which the last ones of them end. -/
theorem endLine_append {first second : List Token}
    (noMark : ∀ token ∈ first, token.isEnd = false) (more : second ≠ []) :
    endLine (first ++ second) = endLine second := by
  have passed : first.find? Token.isEnd = none := by simpa using noMark
  have last : (first ++ second).getLast? = second.getLast? := by
    rw [List.getLast?_append, List.getLast?_eq_some_getLast more, Option.some_or]
  rw [endLine, endLine, List.find?_append, passed, Option.none_or, last]

theorem beforeEnd_eq_self {tokens : List Token}
    (noMark : ∀ token ∈ tokens, token.isEnd = false) : beforeEnd tokens = tokens := by
  rw [beforeEnd, List.takeWhile_eq_self_iff]
  simpa using noMark

namespace Grammar

/-- What is the first token in front of a mark is the first token. -/
theorem NoElse.beforeEnd {tokens : List Token} (noElse : NoElse tokens) :
    NoElse (beforeEnd tokens) := by
  cases tokens with
  | nil => exact noElse
  | cons first rest =>
      intro token isFirst
      rw [Lox.beforeEnd, List.takeWhile_cons] at isFirst
      split at isFirst
      · exact noElse token isFirst
      · cases isFirst

/-- Tokens without a mark that are read without an error, and others behind them that
do not start with `else`: the statements are those of the former and those of the
latter, and the errors are those of the latter.  These may be read in either mode. -/
theorem ofTokens_append {first second : List Token}
    (noMark : ∀ token ∈ first, token.isEnd = false)
    (quiet : (Program.ofTokens false first).errors = []) (more : second ≠ [])
    (noElse : NoElse second) (trailing : Bool) :
    Program.ofTokens trailing (first ++ second) =
      ⟨(Program.ofTokens false first).statements ++
          (Program.ofTokens trailing second).statements,
        (Program.ofTokens trailing second).errors⟩ := by
  have tree := programTree_of_quiet (errors_ofTokens_eq_nil.1 quiet)
  have whole := tree.declarations_append trailing noElse.beforeEnd
  rw [beforeEnd_eq_self noMark] at whole
  rw [Program.ofTokens_eq, beforeEnd_append noMark, whole, endLine_append noMark more,
    Program.ofTokens_eq false, beforeEnd_eq_self noMark]
  rfl

/-- A conditional without an alternative. -/
def openConditional : List Token :=
  [⟨.keyword .ifWord, "if", 1⟩, ⟨.symbol .leftParen, "(", 1⟩, ⟨.identifier, "a", 1⟩,
    ⟨.symbol .rightParen, ")", 1⟩, ⟨.keyword .printWord, "print", 1⟩, ⟨.identifier, "a", 1⟩,
    ⟨.symbol .semicolon, ";", 1⟩]

/-- The conditional could take an `else`, and the block behind it has a fault. -/
theorem openConditional_append :
    (∀ token ∈ openConditional, token.isEnd = false) ∧
    (Program.ofTokens false openConditional).errors = [] ∧ NoElse namelessInBlock ∧
    (Program.ofTokens false (openConditional ++ namelessInBlock)).statements.length = 2 ∧
    Program.ofTokens false (openConditional ++ namelessInBlock) =
      ⟨(Program.ofTokens false openConditional).statements ++
          (Program.ofTokens false namelessInBlock).statements,
        [.grammatical .noVariableName ⟨.symbol .semicolon, ";", 1⟩]⟩ := by
  have noMark : ∀ token ∈ openConditional, token.isEnd = false := by decide
  have quiet : (Program.ofTokens false openConditional).errors = [] := by decide +kernel
  have noElse : NoElse namelessInBlock := by simp [NoElse, namelessInBlock]
  have faulty : (Program.ofTokens false namelessInBlock).errors =
      [.grammatical .noVariableName ⟨.symbol .semicolon, ";", 1⟩] := by decide +kernel
  have more : namelessInBlock ≠ [] := List.cons_ne_nil _ _
  refine ⟨noMark, quiet, noElse, by decide +kernel, ?_⟩
  rw [ofTokens_append noMark quiet more noElse false, faulty]

end Grammar

end Lox
