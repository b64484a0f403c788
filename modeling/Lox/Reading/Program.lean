/-
# Reading whole programs

A program is read declaration by declaration up to the end of input; what
could not be read is left out, and its faults are kept.

A list of tokens ends at its first end mark, and what follows the mark is not
looked at.  A list without a mark ends on the line of its last token; the
empty list ends on the first line.
-/

import Lox.Reading.Statement
import Lox.Stream

namespace Lox

/-- What was read of a program, with labels. -/
structure LabelledProgram (ρ : Type) where
  statements : List (Stmt ρ)
  /-- The syntax errors, in the order in which they were noticed. -/
  errors : List StaticError

/-- What was read of a program. -/
abbrev Program := LabelledProgram Unit

variable {m : Type → Type} [Monad m] {ρ : Type} [Labelling m ρ]

/-- Reads declarations until no token is left. -/
def allDeclarations (trailing : Bool) : List Token → m (List (Stmt ρ) × List Notice)
  | [] => pure ([], [])
  | first :: rest =>
    (declaration trailing first rest : m _) >>= fun declared => do
      let (statements, notices) ← allDeclarations trailing declared.rest
      return (declared.statement.toList ++ statements, declared.notices ++ notices)
termination_by tokens => tokens.length
decreasing_by exact declared.shorter

/-- The statements that tokens are, without labels, and the faults that are
noticed in them. -/
def declarations (trailing : Bool) (tokens : List Token) : List (Stmt Unit) × List Notice :=
  Id.run (allDeclarations trailing tokens)

/-- The tokens in front of the first end mark. -/
def beforeEnd (tokens : List Token) : List Token :=
  tokens.takeWhile fun token => !token.isEnd

/-- The line on which a list of tokens ends. -/
def endLine (tokens : List Token) : Nat :=
  match tokens.find? Token.isEnd with
  | some mark => mark.line
  | none => (tokens.getLast?.map Token.line).getD 1

namespace Program

/-- Reads a program from tokens. -/
def read (trailing : Bool) (tokens : List Token) : m (LabelledProgram ρ) := do
  let (statements, notices) ← allDeclarations trailing (beforeEnd tokens)
  return ⟨statements, notices.map (Notice.error (endLine tokens))⟩

/-- The program that tokens are, without labels. -/
def ofTokens (trailing : Bool) (tokens : List Token) : Program :=
  Id.run (read trailing tokens)

/-- Reads a program from the tokens of a text, those that could be told.  The
lexical errors of the text are not among its errors. -/
def ofSource (trailing : Bool) (source : String) : Program :=
  ofTokens trailing (tokensOf source)

end Program

end Lox
