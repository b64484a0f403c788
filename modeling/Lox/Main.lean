/-
# The command

Reads the arguments, the files and the standard input, and writes what
`Lox.CommandLine` answers.  At a prompt each line is answered before the next
one is read.
-/

import Lox.CommandLine
import Std.Time

namespace Lox.Main

/-- A clock that starts now. -/
def now : IO Clock := do
  let time ← Std.Time.Timestamp.now
  return .ticking (time.toNanosecondsSinceUnixEpoch.toInt / 1000).toNat

/-- The number of a system error, which comes with or without its sign. -/
def errorNumber (code : UInt32) : UInt32 :=
  if code < 0 - code then code else 0 - code

/-- What a failure to read a file means. -/
def unread (error : IO.Error) : FileContent :=
  match error with
  | .noFileOrDirectory .. => Directory.noSuchFile
  | .inappropriateType _ code _ =>
    if errorNumber code = 21 then Directory.isADirectory else Directory.noDirectory
  | .invalidArgument _ code _ =>
    if errorNumber code = 36 then Directory.nameTooLong else .notOpened (toString error)
  | _ => .notOpened (toString error)

/-- Reads the file at a path. -/
def readFile (path : String) : IO FileContent := do
  try
    return .bytes (← IO.FS.readBinFile path).toList
  catch error => return unread error

/-- Writes a report and gives its exit code. -/
def write (report : Report) : IO UInt32 := do
  let stdout ← IO.getStdout
  stdout.putStr report.stdout
  stdout.flush
  IO.eprint report.stderr
  return report.exit.toUInt32

/-- The next line of an input, of which these bytes were read. -/
partial def readLine (input : IO.FS.Stream) (read : List UInt8) : IO (Option Prompt.Line) := do
  match (← input.read 1).toList with
  | [] => return Prompt.Line.atEnd? read
  | byte :: _ =>
    match Prompt.Line.takeByte read byte with
    | .inl line => return some line
    | .inr read => readLine input read

/-- Prompts for lines until the input ends. -/
partial def prompt (session : Session) : IO UInt32 := do
  let stdout ← IO.getStdout
  stdout.putStr Prompt.mark
  stdout.flush
  let line ← readLine (← IO.getStdin) []
  match Prompt.turn Session.ampleAllowance session (← now) line with
  | .answered after written =>
    let _ ← write written
    prompt after
  | .ended written => write written
  | .unended => write .unended

/-- Starts the log if a command keeps one, and gives the reason why it cannot
be started. -/
def startLog (command : Command) : IO (Option String) := do
  if command.log then
    try
      IO.FS.writeFile Command.logName ""
      return none
    catch
      | .inappropriateType .. => return some Directory.directoryReason
      | error => return some (toString error)
  else return none

/-- Answers a request. -/
def answer (request : Request) : IO UInt32 := do
  let session := Session.start {} (← now)
  match request with
  | .prompt => prompt session
  | _ =>
    let content ←
      match request.path? with
      | some path => readFile path
      | none => pure Directory.noSuchFile
    let report :=
      request.answer? Session.ampleAllowance session (fun _ => session.machine.clock)
        (fun _ => content) []
    write (report.getD .unended)

end Lox.Main

/-- The command of the language. -/
def main (arguments : List String) : IO UInt32 := do
  let command := Lox.Command.ofArguments arguments
  match ← Lox.Main.startLog command with
  | none => Lox.Main.answer command.request
  | some reason => Lox.Main.write (Lox.Command.withoutLog reason)
