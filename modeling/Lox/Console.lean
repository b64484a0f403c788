/-
# The console

What a program prints goes to a console, one value to a line.  Every line is
written and then flushed.  Both can fail: a console can be told after how many
lines writing fails, and after how many flushing does.  A line whose flush
failed has been written.
-/

namespace Lox

/-- Why a line could not be printed. -/
inductive OutputFault where
  | pipeClosed
  | flushFailed
deriving DecidableEq

/-- The wording of an output fault. -/
def OutputFault.message : OutputFault → String
  | pipeClosed => "pipe closed"
  | flushFailed => "flush failed"

/-- When a console fails. -/
structure ConsoleLimits where
  /-- After so many printed lines, writing fails. -/
  write : Option Nat := none
  /-- After so many printed lines, flushing fails. -/
  flush : Option Nat := none

/-- What has been printed. -/
structure Console where
  /-- The lines that were written, without their newlines. -/
  lines : Array String := #[]
  /-- How many lines were written and flushed. -/
  flushed : Nat := 0
  limits : ConsoleLimits := {}

namespace Console

/-- Whether a limit is reached. -/
def reached (console : Console) (limit : Option Nat) : Bool :=
  limit.any (· ≤ console.flushed)

/-- Adds a line that was written. -/
def written (console : Console) (line : String) : Console :=
  { console with lines := console.lines.push line }

/-- Prints a line: the fault, if there was one, and the console after it. -/
def print (console : Console) (line : String) : Option OutputFault × Console :=
  if console.reached console.limits.write then (some .pipeClosed, console)
  else if console.reached console.limits.flush then (some .flushFailed, console.written line)
  else (none, { console.written line with flushed := console.flushed + 1 })

/-- The text that was written after the first `skipped` lines. -/
def textFrom (console : Console) (skipped : Nat) : String :=
  (console.lines.toList.drop skipped).foldl (fun text line => text ++ line ++ "\n") ""

/-- All text that was written. -/
def text (console : Console) : String :=
  console.textFrom 0

end Console

end Lox
