/-
# A prompt is a session

The prompt reads bytes and cuts them at newlines before it looks at any character.  For
an input that is a text this is the same as cutting the text into its lines
(`Prompt.IsLines`), and a prompt then does nothing but enter the lines in one session:
what it writes is made of the answers of the session, and an error is only written
down.  The next line is entered in the session that the error left behind.

A prompt does not come back from a line whose run never ends.  So all this is said of
lines that end, that is, within some allowance; then every larger allowance gives the
same report.  Where a line does not end within its allowance, there is no report.
-/

import Lox.CommandLine
import Lox.Proofs.Allowance
import Lox.Proofs.Encoding

namespace Lox

namespace Prompt

open Text (bytesOf)

/-! ## Lines of a text -/

/-- A line without the one carriage return that may belong to its end. -/
def withoutReturn (line : List Char) : List Char :=
  if line.getLast? = some '\r' then line.dropLast else line

/-- The lines of a text.  A newline ends a line, with a carriage return in front of it if
there is one.  What stands behind the last newline is a line if it is not empty, and keeps
all its characters. -/
inductive IsLines : List Char → List String → Prop where
  | none : IsLines [] []
  | ended {line rest : List Char} {lines : List String} (noNewline : '\n' ∉ line)
      (more : IsLines rest lines) :
      IsLines (line ++ '\n' :: rest) (String.ofList (withoutReturn line) :: lines)
  | unended {line : List Char} (noNewline : '\n' ∉ line) (some : line ≠ []) :
      IsLines line [String.ofList line]

/-- Every text has lines. -/
theorem exists_isLines (text : List Char) : ∃ lines, IsLines text lines := by
  by_cases newline : '\n' ∈ text
  · obtain ⟨line, rest, rfl, noNewline⟩ := List.eq_append_cons_of_mem newline
    obtain ⟨lines, more⟩ := exists_isLines rest
    exact ⟨_, .ended noNewline more⟩
  · by_cases empty : text = []
    · exact ⟨[], empty ▸ .none⟩
    · exact ⟨_, .unended newline empty⟩
termination_by text.length
decreasing_by simp_all; omega

/-- The first newline of a text stands in one place. -/
theorem eq_of_first_newline {line other rest more : List Char} (noNewline : '\n' ∉ line)
    (noNewline' : '\n' ∉ other) (same : line ++ '\n' :: rest = other ++ '\n' :: more) :
    line = other ∧ rest = more := by
  induction line generalizing other with
  | nil =>
      cases other with
      | nil => exact ⟨rfl, (List.cons.inj same).2⟩
      | cons first other =>
          exact absurd ((List.cons.inj same).1 ▸ List.mem_cons_self) noNewline'
  | cons first line ih =>
      cases other with
      | nil => exact absurd ((List.cons.inj same).1 ▸ List.mem_cons_self) noNewline
      | cons first' other =>
          obtain ⟨rfl, tails⟩ := List.cons.inj same
          obtain ⟨rfl, rests⟩ := ih (List.not_mem_of_not_mem_cons noNewline)
            (List.not_mem_of_not_mem_cons noNewline') tails
          exact ⟨rfl, rests⟩

/-- A text has its lines in one way only. -/
theorem IsLines.unique {text : List Char} {lines others : List String}
    (areLines : IsLines text lines) (areOthers : IsLines text others) : others = lines := by
  induction areLines generalizing others with
  | none =>
      generalize empty : ([] : List Char) = text at areOthers
      cases areOthers with
      | none => rfl
      | ended => simp at empty
      | unended noNewline some => exact absurd empty.symm some
  | @ended line rest lines noNewline more ih =>
      generalize same : line ++ '\n' :: rest = text at areOthers
      cases areOthers with
      | none => simp at same
      | ended noNewline' more' =>
          obtain ⟨rfl, rfl⟩ := eq_of_first_newline noNewline noNewline' same
          rw [ih more']
      | unended noNewline' => exact absurd (same ▸ by simp) noNewline'
  | unended noNewline some =>
      cases areOthers with
      | none => exact absurd rfl some
      | ended => simp at noNewline
      | unended => rfl

/-! ## Lines of bytes -/

theorem linesBehind_newline {line : List UInt8} (noNewline : newline ∉ line)
    (read rest : List UInt8) :
    linesBehind read (line ++ newline :: rest) =
      ⟨read.reverse ++ line, true⟩ :: linesBehind [] rest := by
  induction line generalizing read with
  | nil => rw [List.nil_append, linesBehind, Line.takeByte, if_pos rfl, List.append_nil]
  | cons byte line ih =>
      have other : byte ≠ newline := fun same => noNewline (same ▸ List.mem_cons_self)
      rw [List.cons_append, linesBehind, Line.takeByte, if_neg other]
      dsimp only
      rw [ih (List.not_mem_of_not_mem_cons noNewline), List.reverse_cons, List.append_assoc]
      rfl

theorem linesBehind_unended {line : List UInt8} (noNewline : newline ∉ line)
    (read : List UInt8) (some : read.reverse ++ line ≠ []) :
    linesBehind read line = [⟨read.reverse ++ line, false⟩] := by
  induction line generalizing read with
  | nil =>
      rw [List.append_nil] at some ⊢
      have filled : ¬ read.isEmpty = true := by simpa using some
      rw [linesBehind, Line.atEnd?, if_neg filled]
      rfl
  | cons byte line ih =>
      have other : byte ≠ newline := fun same => noNewline (same ▸ List.mem_cons_self)
      have whole : (byte :: read).reverse ++ line = read.reverse ++ byte :: line := by
        rw [List.reverse_cons, List.append_assoc]
        rfl
      rw [linesBehind, Line.takeByte, if_neg other]
      dsimp only
      rw [ih (List.not_mem_of_not_mem_cons noNewline) _ (whole ▸ some), whole]

/-- There is a newline among the bytes of a text only if there is one in the text. -/
theorem newline_not_mem_bytesOf {line : List Char} (noNewline : '\n' ∉ line) :
    newline ∉ bytesOf line :=
  fun member => noNewline (Text.mem_of_mem_bytesOf (by decide) member)

theorem Line.text_unended (line : List Char) :
    Line.text ⟨bytesOf line, false⟩ = .ok (String.ofList line) :=
  Text.decodeUtf8_bytesOf line

/-- The bytes of a line stand for the line without the carriage return at its end. -/
theorem Line.text_ended (line : List Char) :
    Line.text ⟨bytesOf line, true⟩ = .ok (String.ofList (withoutReturn line)) := by
  rw [Line.text, withoutReturn, Bool.true_and]
  by_cases returned : line.getLast? = some '\r'
  · obtain ⟨front, rfl⟩ := List.getLast?_eq_some_iff.1 returned
    have bytes : bytesOf (front ++ ['\r']) = bytesOf front ++ [carriageReturn] :=
      Text.bytesOf_append front ['\r']
    rw [if_pos returned, List.dropLast_concat, bytes, List.getLast?_concat,
      if_pos (decide_eq_true rfl), List.dropLast_concat, Text.decodeUtf8_bytesOf]
  · have noReturn : (bytesOf line).getLast? ≠ some carriageReturn :=
      fun last => returned (Text.getLast?_of_getLast?_bytesOf (by decide) last)
    rw [if_neg returned, if_neg (by simpa using noReturn), Text.decodeUtf8_bytesOf]

/-! ## The session of a prompt -/

/-- What is done with the session of a prompt: at every line the clock is set and the line
is entered. -/
def steps (allowance : Nat) (clocks : Nat → Clock) : List String → List Step
  | [] => []
  | line :: rest =>
    .clock (clocks 0) :: .enter allowance .line line ::
      steps allowance (fun count => clocks (count + 1)) rest

/-- What is written of the answers of a session: behind one mark for each of them what was
printed, and the failures apart from that.  The last mark stands where the input ends. -/
def written (answers : List Answer) : Report where
  exit := 0
  stdout := String.join (answers.map fun answer => mark ++ answer.printed) ++ (mark ++ "\n")
  stderr := String.join (answers.filterMap fun answer =>
    answer.failure.map fun failure => failure.message ++ "\n")

/-- What is written of one answer, in front of what is written further on. -/
def inFront (answer : Answer) (further : Report) : Report where
  exit := further.exit
  stdout := mark ++ (answer.printed ++ further.stdout)
  stderr := Report.lines (answer.failure.toList.map RunFailure.message) ++ further.stderr

theorem written_cons (first : Answer) (rest : List Answer) :
    written (first :: rest) = inFront first (written rest) := by
  obtain ⟨printed, failure⟩ := first
  rw [written, List.map_cons, String.join_cons, String.append_assoc]
  cases failure with
  | none => simp [written, inFront, Report.lines, String.append_assoc]
  | some failure => simp [written, inFront, Report.lines, String.append_assoc]

/-- The steps of a prompt with a larger allowance. -/
theorem steps_widens {n more : Nat} (le : n ≤ more) (clocks : Nat → Clock)
    (lines : List String) :
    List.Forall₂ Step.Widens (steps n clocks lines) (steps more clocks lines) := by
  induction lines generalizing clocks with
  | nil => exact .nil
  | cons line lines ih => exact .cons (.clock _) (.cons (.enter le .line line) (ih _))

section Report

variable {line : Line} {text : String} {allowance : Nat} {session : Session}
  {clocks : Nat → Clock}

/-- At the end of the input there is one mark more. -/
theorem report_nil : report allowance session clocks [] = some (written []) :=
  rfl

/-- A line that ends is one step of the session of a prompt, whether it fails or not. -/
theorem report_cons (isText : line.text = .ok text)
    (finished : ¬ Session.RanOut ((session.withClock (clocks 0)).runLine allowance text))
    (rest : List Line) :
    report allowance session clocks (line :: rest) =
      (report allowance ((session.withClock (clocks 0)).runLine allowance text).1
        (fun count => clocks (count + 1)) rest).map
          (inFront (Session.answerSince ((session.withClock (clocks 0)).runLine allowance text)
            (session.withClock (clocks 0)))) := by
  rw [report, turn, isText]
  dsimp only
  rw [Session.ended?_of_not_ranOut finished]
  exact Option.map_map _ _ _

/-- Of a line that does not end within its allowance there is no report. -/
theorem report_cons_of_ranOut (isText : line.text = .ok text)
    (ranOut : Session.RanOut ((session.withClock (clocks 0)).runLine allowance text))
    (rest : List Line) : report allowance session clocks (line :: rest) = none := by
  rw [report, turn, isText]
  dsimp only
  rw [Session.ended?_of_ranOut ranOut]
  rfl

/-- A line in front of others, all of which are steps of the session of a prompt. -/
theorem report_cons_of_steps (isText : line.text = .ok text) {rest : List Line}
    {lines : List String}
    (further : ∀ (session : Session) (clocks : Nat → Clock), report allowance session clocks rest =
      if session.Finishes (steps allowance clocks lines) then
        some (written (session.transcript (steps allowance clocks lines)))
      else none) :
    report allowance session clocks (line :: rest) =
      if session.Finishes (steps allowance clocks (text :: lines)) then
        some (written (session.transcript (steps allowance clocks (text :: lines))))
      else none := by
  have splits : session.Finishes (steps allowance clocks (text :: lines)) ↔
      ¬ Session.RanOut ((session.withClock (clocks 0)).runLine allowance text) ∧
        ((session.withClock (clocks 0)).runLine allowance text).1.Finishes
          (steps allowance (fun count => clocks (count + 1)) lines) :=
    Session.finishes_clock.trans Session.finishes_enter
  by_cases ranOut : Session.RanOut ((session.withClock (clocks 0)).runLine allowance text)
  · rw [report_cons_of_ranOut isText ranOut, if_neg fun finishes => (splits.1 finishes).1 ranOut]
  · rw [report_cons isText ranOut, further]
    by_cases ends : ((session.withClock (clocks 0)).runLine allowance text).1.Finishes
        (steps allowance (fun count => clocks (count + 1)) lines)
    · rw [if_pos ends, if_pos (splits.2 ⟨ranOut, ends⟩)]
      exact congrArg some (written_cons _ _).symm
    · rw [if_neg ends, if_neg fun finishes => ends (splits.1 finishes).2]
      rfl

end Report

/-- A prompt writes what the session answers to the lines of its input, if these end. -/
theorem report_of_isLines {text : List Char} {lines : List String} (areLines : IsLines text lines)
    (allowance : Nat) (session : Session) (clocks : Nat → Clock) :
    report allowance session clocks (linesBehind [] (bytesOf text)) =
      if session.Finishes (steps allowance clocks lines) then
        some (written (session.transcript (steps allowance clocks lines)))
      else none := by
  induction areLines generalizing session clocks with
  | none => exact report_nil.trans (if_pos nofun).symm
  | @ended line rest lines noNewline more ih =>
      have bytes : bytesOf (line ++ '\n' :: rest) = bytesOf line ++ newline :: bytesOf rest :=
        Text.bytesOf_append line ('\n' :: rest)
      rw [bytes, linesBehind_newline (newline_not_mem_bytesOf noNewline)]
      exact report_cons_of_steps (Line.text_ended line) ih
  | @unended line noNewline some =>
      have filled : bytesOf line ≠ [] := by
        obtain ⟨first, more, rfl⟩ := List.exists_cons_of_ne_nil some
        rw [Text.bytesOf_cons]
        exact List.append_ne_nil_of_left_ne_nil String.utf8EncodeChar_ne_nil _
      rw [linesBehind_unended (newline_not_mem_bytesOf noNewline) [] filled]
      exact report_cons_of_steps (Line.text_unended line) fun _ _ =>
        report_nil.trans (if_pos nofun).symm

end Prompt

/-- Without a script, any input that is a text is answered by one session in which its
lines are entered one after the other.  If the run of every line ends within an
allowance, then with this allowance and with all larger ones the command writes what the
session answers, and it ends with success whatever becomes of the lines.  If the run of a
line does not end within an allowance, nothing is told of the command with it. -/
theorem prompt_answers_session {arguments : List String}
    (asksPrompt : (Command.ofArguments arguments).request = .prompt)
    {directory prepared : Directory}
    (prepares : (Command.ofArguments arguments).prepare directory = .ok prepared)
    (clock : Clock) (clocks : Nat → Clock) (input : String) :
    ∃ lines, Prompt.IsLines input.toList lines ∧
      (∀ others, Prompt.IsLines input.toList others → others = lines) ∧
      ∀ allowance,
        ((Session.start {} clock).Finishes (Prompt.steps allowance clocks lines) →
          ∀ sufficient, allowance ≤ sufficient →
            (Command.ofArguments arguments).answer? sufficient (.start {} clock) clocks directory
                input.toUTF8.data.toList =
              some (Prompt.written
                ((Session.start {} clock).transcript (Prompt.steps allowance clocks lines)))) ∧
        (¬ (Session.start {} clock).Finishes (Prompt.steps allowance clocks lines) →
          (Command.ofArguments arguments).answer? allowance (.start {} clock) clocks directory
              input.toUTF8.data.toList = none) := by
  obtain ⟨lines, areLines⟩ := Prompt.exists_isLines input.toList
  have answered (allowance : Nat) :
      (Command.ofArguments arguments).answer? allowance (.start {} clock) clocks directory
          input.toUTF8.data.toList =
        if (Session.start {} clock).Finishes (Prompt.steps allowance clocks lines) then
          some (Prompt.written
            ((Session.start {} clock).transcript (Prompt.steps allowance clocks lines)))
        else none := by
    rw [Command.answer?, prepares]
    dsimp only
    rw [asksPrompt, Request.answer?, Text.toUTF8_eq, Prompt.report_of_isLines areLines]
  refine ⟨lines, areLines, fun others areOthers => areLines.unique areOthers,
    fun allowance => ⟨fun finishes sufficient le => ?_, fun unfinished => ?_⟩⟩
  · have widens := Prompt.steps_widens le clocks lines
    have same := Session.transcript_of_widens widens finishes
    rw [answered, if_pos (finishes.widens widens), same]
  · rw [answered, if_neg unfinished]

/-- A carriage return, an error and a line that nothing ends. -/
theorem threeLines_answered :
    (Command.ofArguments []).request = .prompt ∧ (Command.ofArguments []).prepare [] = .ok [] ∧
      (Session.start {} (.ticking 0)).Finishes
        (Prompt.steps 100 .ticking ["print 1;", "x;", "2"]) ∧
      (Command.ofArguments []).answer? Session.ampleAllowance (.start {} (.ticking 0)) .ticking []
          "print 1;\r\nx;\n2".toUTF8.data.toList =
        some (Prompt.written ((Session.start {} (.ticking 0)).transcript
          (Prompt.steps 100 .ticking ["print 1;", "x;", "2"]))) := by
  have finishes : (Session.start {} (.ticking 0)).Finishes
      (Prompt.steps 100 .ticking ["print 1;", "x;", "2"]) := by decide +kernel
  refine ⟨rfl, rfl, finishes, ?_⟩
  obtain ⟨lines, -, unique, answered⟩ :=
    @prompt_answers_session [] rfl [] [] rfl (.ticking 0) .ticking "print 1;\r\nx;\n2"
  have three : Prompt.IsLines "print 1;\r\nx;\n2".toList ["print 1;", "x;", "2"] :=
    @Prompt.IsLines.ended "print 1;\r".toList _ _ (by decide)
      (@Prompt.IsLines.ended "x;".toList _ _ (by decide) (.unended (by decide) (by decide)))
  obtain rfl := unique _ three
  exact (answered 100).1 finishes Session.ampleAllowance (by decide)

/-- The unknown name is reported, and the line behind it is answered. -/
example : (Command.ofArguments []).answer .start [] "print 1;\r\nx;\n2".toUTF8.data.toList =
    { stdout := "> 1\n> > 2\n> \n", stderr := "Undefined variable 'x'.\n[line 1]\n" } := by
  decide +kernel

/-- Of a line that goes on and on nothing is told. -/
example : (Command.ofArguments []).answer? 100 .start .ticking []
    "while(true)\x7b\x7d\nprint 1;".toUTF8.data.toList = none := by
  decide +kernel

end Lox
