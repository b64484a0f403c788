/-
# The command line

The arguments ask for one of a few things: to run a script, to list the tokens
or the trees of a script, or, without a script, to prompt for lines.
`Command.ofArguments` tells which, and `Command.answer` does it, given what is
found in the directory and on standard input: it gives the exit code and the
two texts that are written.

A command may keep a log.  The log is a file of the directory, started afresh
before anything else is done; what is written to it later is not told here.

A prompt is one session.  For every line the mark of the prompt is written,
the clock is set, the line is run, and an error is reported; no error ends the
prompt.  It ends with the input, or where the input is no text.

A run that has used up its allowance of steps may go on without end.  There is
no report of it, nor of anything behind it.
-/

import Lox.Directory
import Lox.Listing
import Lox.Session
import Lox.Syntax.PrefixForm
import Lox.Text.Quoted
import Lox.Text.Utf8

namespace Lox

/-- What of a script is listed instead of running it. -/
inductive Emission where
  | tokens
  | trees
deriving DecidableEq

/-- What the arguments ask for. -/
inductive Request where
  | version
  /-- How the command is used, as help. -/
  | help
  | prompt
  | script (path : String)
  | listTokens (path : String) (json : Bool)
  | listTrees (path : String)
  /-- There are too many scripts, or too few. -/
  | usage
  /-- An argument is not understood. -/
  | refused (argument : String)
deriving DecidableEq

/-- The options and paths of a row of arguments. -/
structure Options where
  paths : List String := []
  emission : Option Emission := none
  json : Bool := false
  log : Bool := false

namespace Options

/-- The request that options make. -/
def request (options : Options) : Request :=
  match options.paths, options.emission with
  | [], none => .prompt
  | [path], none => .script path
  | [path], some .tokens => .listTokens path options.json
  | [path], some .trees => .listTrees path
  | _, _ => .usage

/-- Adds a path.  A path is not empty. -/
def withPath (options : Options) (path : String) : Except Request Options :=
  if path.isEmpty then .error (.refused path)
  else .ok { options with paths := options.paths ++ [path] }

/-- Sets what is listed.  It can be set only once. -/
def withEmission (options : Options) (value : String) : Except Request Options :=
  match options.emission, value with
  | none, "tokens" => .ok { options with emission := some .tokens }
  | none, "ast" => .ok { options with emission := some .trees }
  | _, _ => .error (.refused value)

/-- Takes one argument that is no option with a separate value.  What follows
a short option in its argument is not looked at, since that option settles the
request. -/
def withArgument (options : Options) (argument : String) : Except Request Options :=
  if argument = "--version" || argument.startsWith "-V" then .error .version
  else if argument = "--help" || argument.startsWith "-h" then .error .help
  else if argument = "--log" && !options.log then .ok { options with log := true }
  else if argument = "--json" && !options.json then .ok { options with json := true }
  else if argument.startsWith "--emit=" then
    options.withEmission (argument.drop "--emit=".length).toString
  else if argument.startsWith "-" && argument ≠ "-" then .error (.refused argument)
  else options.withPath argument

/-- Takes arguments from left to right.  After two dashes all are paths.  The
error is the request of an argument that settles it at once. -/
def ofArguments (options : Options) : List String → Except Request Options
  | [] => .ok options
  | "--" :: paths => paths.foldlM withPath options
  | "--emit" :: value :: rest => do (← options.withEmission value).ofArguments rest
  | "--emit" :: [] => .error (.refused "--emit")
  | argument :: rest => do (← options.withArgument argument).ofArguments rest

end Options

/-- What a command wrote, and its exit code. -/
structure Report where
  exit : Nat := 0
  stdout : String := ""
  stderr : String := ""
deriving DecidableEq

namespace Report

/-- Texts as lines. -/
def lines (texts : List String) : String :=
  texts.foldl (fun text line => text ++ line ++ "\n") ""

/-- The report of something that failed for a reason. -/
def failed (what reason : String) : Report where
  exit := 1
  stderr := "Error: " ++ what ++ "\n\nCaused by:\n    " ++ reason ++ "\n"

/-- What is written in front of what is written further on. -/
def before (written further : Report) : Report where
  exit := further.exit
  stdout := written.stdout ++ further.stdout
  stderr := written.stderr ++ further.stderr

/-- The report of a run since an earlier moment of its session. -/
def ofRun (earlier after : Session) (failure : Option RunFailure) : Report where
  exit := (failure.map RunFailure.exitCode).getD 0
  stdout := after.printedSince earlier
  stderr := lines (failure.toList.map RunFailure.message)

/-- What stands for the report of a command that has used up its allowance. -/
def unended : Report where
  exit := (RunFailure.interrupted .exhausted).exitCode
  stderr := lines [(RunFailure.interrupted .exhausted).message]

/-- Runs a script, if it ends within an allowance. -/
def ofScript (allowance : Nat) (session : Session) (source : String) : Option Report :=
  (Session.ended? (session.run allowance source)).map fun (after, failure) =>
    ofRun session after failure

/-- The exit code of a listing: that of a rejected program if there were
errors. -/
def listingExit (errors : List StaticError) : Nat :=
  if errors.isEmpty then 0 else (RunFailure.rejected errors).exitCode

/-- Lists the tokens of a script. -/
def ofTokens (json : Bool) (source : String) : Report :=
  let errors := lexicalErrorsOf source
  { exit := listingExit errors
    stdout := lines ((tokensOf source).map fun token => if json then token.json else token.listing)
    stderr := lines (errors.map StaticError.message) }

/-- Lists the trees of a script, if there is nothing wrong with it. -/
def ofTrees (source : String) : Report :=
  let program := Program.ofSource false source
  let errors := lexicalErrorsOf source ++ program.errors
  { exit := listingExit errors
    stdout := if errors.isEmpty then lines (program.statements.map Stmt.prefixForm) else ""
    stderr := lines (errors.map StaticError.message) }

/-- Reports on the text of a file. -/
def onText (path : String) (report : String → Option Report) : FileContent → Option Report
  | .notOpened reason => some (failed ("Failed to open file " ++ Text.quoted path) reason)
  | .notRead reason => some (failed ("Failed to read file " ++ Text.quoted path) reason)
  | .bytes content =>
    match Text.decodeUtf8 content with
    | .ok source => report source
    | .error fault =>
      some (failed ("File " ++ Text.quoted path ++ " is not valid UTF-8") fault.message)

end Report

namespace Prompt

/-- What is written before a line is read. -/
def mark : String := "> "

/-- The byte that ends a line. -/
def newline : UInt8 := 10

/-- The byte that may stand before the end of a line. -/
def carriageReturn : UInt8 := 13

/-- The bytes of a line, and whether a newline ends it. -/
structure Line where
  bytes : List UInt8
  ended : Bool

namespace Line

/-- One more byte behind those that were read of a line, the latest of which
comes first.  It ends the line, or it belongs to it. -/
def takeByte (read : List UInt8) (byte : UInt8) : Line ⊕ List UInt8 :=
  if byte = newline then .inl ⟨read.reverse, true⟩ else .inr (byte :: read)

/-- The line that the end of the input makes of what was read. -/
def atEnd? (read : List UInt8) : Option Line :=
  if read.isEmpty then none else some ⟨read.reverse, false⟩

/-- The text of a line.  One carriage return before the newline belongs to the
end of the line. -/
def text (line : Line) : Except Text.Utf8Fault String :=
  Text.decodeUtf8 <|
    if line.ended && line.bytes.getLast? = some carriageReturn then line.bytes.dropLast
    else line.bytes

end Line

/-- The lines of an input behind what was read of the first one. -/
def linesBehind (read : List UInt8) : List UInt8 → List Line
  | [] => (Line.atEnd? read).toList
  | byte :: rest =>
    match Line.takeByte read byte with
    | .inl line => line :: linesBehind [] rest
    | .inr read => linesBehind read rest

/-- The report of an input that is no text. -/
def unreadable : Report :=
  Report.failed "Failed to read from stdin" "stream did not contain valid UTF-8"

/-- What comes of one turn of a prompt. -/
inductive Turn where
  /-- The line was answered, and the prompt goes on in a session. -/
  | answered (session : Session) (written : Report)
  /-- The prompt ends. -/
  | ended (written : Report)
  /-- The line did not end within its allowance. -/
  | unended

/-- What a prompt does with the next line, at which the clock is set, or at the
end of its input. -/
def turn (allowance : Nat) (session : Session) (clock : Clock) : Option Line → Turn
  | none => .ended { stdout := "\n" }
  | some line =>
    match line.text with
    | .error _ => .ended unreadable
    | .ok text =>
      let session := session.withClock clock
      match Session.ended? (session.runLine allowance text) with
      | some (after, failure) => .answered after (.ofRun session after failure)
      | none => .unended

/-- The report of a prompt whose turn came to this, and that goes on so. -/
def Turn.report (further : Session → Option Report) : Turn → Option Report
  | answered session written => (further session).map written.before
  | ended written => some written
  | unended => none

/-- Prompts for lines up to the end of the input or to a line that is no text.
The clocks are those of the lines. -/
def report (allowance : Nat) (session : Session) (clocks : Nat → Clock) :
    List Line → Option Report
  | [] =>
    ((turn allowance session (clocks 0) none).report fun _ => none).map
      (Report.before { stdout := mark })
  | line :: rest =>
    ((turn allowance session (clocks 0) (some line)).report fun after =>
      report allowance after (fun count => clocks (count + 1)) rest).map
        (Report.before { stdout := mark })

end Prompt

namespace Request

/-- The file that a request is about, if it is about one. -/
def path? : Request → Option String
  | script path => some path
  | listTokens path _ => some path
  | listTrees path => some path
  | _ => none

/-- How the command is used. -/
def usageText : String := "Usage: rox [script]"

/-- Answers a request, if that ends within an allowance.  `session` is new, `read`
gives the content of a file, and `input` is what stands on standard input. -/
def answer? (allowance : Nat) (session : Session) (clocks : Nat → Clock)
    (read : String → FileContent) (input : List UInt8) : Request → Option Report
  | version => some { stdout := Report.lines ["rox 0.1.0"] }
  | help => some { stdout := Report.lines [usageText] }
  | prompt => Prompt.report allowance session clocks (Prompt.linesBehind [] input)
  | script path => Report.onText path (Report.ofScript allowance session) (read path)
  | listTokens path json =>
    Report.onText path (fun source => some (Report.ofTokens json source)) (read path)
  | listTrees path => Report.onText path (fun source => some (Report.ofTrees source)) (read path)
  | usage => some { exit := 64, stdout := Report.lines [usageText] }
  | refused argument =>
    some
      { exit := 2
        stderr := Report.lines ["error: unexpected argument " ++ Text.quoted argument, usageText] }

end Request

/-- A request, and whether a log is kept of its answer. -/
structure Command where
  request : Request
  log : Bool
deriving DecidableEq

namespace Command

/-- What the arguments of the command ask for.  An argument that settles the
request at once leaves no log. -/
def ofArguments (arguments : List String) : Command :=
  match ({} : Options).ofArguments arguments with
  | .ok options => ⟨options.request, options.log⟩
  | .error request => ⟨request, false⟩

/-- The name of the log. -/
def logName : String := "rox.log"

/-- The report of a log that cannot be started. -/
def withoutLog (reason : String) : Report :=
  Report.failed ("Failed to create " ++ logName) reason

/-- The directory in which a request is answered. -/
def prepare (command : Command) (directory : Directory) : Except String Directory :=
  if command.log then directory.startFile logName else .ok directory

/-- Answers a command in a directory, if that ends within an allowance.  `session` is
new, the clocks are those of the lines of a prompt, and `input` is what stands on
standard input. -/
def answer? (command : Command) (allowance : Nat) (session : Session) (clocks : Nat → Clock)
    (directory : Directory) (input : List UInt8) : Option Report :=
  match command.prepare directory with
  | .ok directory => command.request.answer? allowance session clocks directory.read input
  | .error reason => some (withoutLog reason)

/-- Answers a command in a directory, with an allowance that no run of practical length
uses up and with one clock at all lines of a prompt. -/
def answer (command : Command) (session : Session) (directory : Directory)
    (input : List UInt8) : Report :=
  (command.answer? Session.ampleAllowance session (fun _ => session.machine.clock) directory
    input).getD .unended

end Command

end Lox
