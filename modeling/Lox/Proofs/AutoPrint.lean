/-
# The value of a line

A line that is just one expression prints its value.  This module shows that nothing
but the writing tells it from other ways to say so: with a semicolon below it, and as
a print statement with the same semicolon, it gives the same output and the same
failure, and leaves the same session.

That holds of every session and of every text without lexical errors whose tokens are
one expression, also of one in which faults are noticed, and however its evaluation
ends.  The print statement is one step of a run more, and so needs one more of its
allowance.
-/

import Lox.Proofs.AutoPrint.Reading
import Lox.Proofs.Recovery.Sentences
import Lox.Proofs.Session

namespace Lox

open Execution

/-! ## Texts that are one expression -/

/-- A phrase was read, and nothing is left. -/
def Outcome.isWhole {α : Type} : Outcome α → Bool
  | done _ _ rest => rest.isEmpty
  | stuck _ _ _ => false

/-- The tokens of a text are one expression.  Faults that do not stop its reading may be
noticed: an assignment to something that cannot be assigned, or an argument too many. -/
def IsExpression (source : String) : Prop :=
  (expression (beforeEnd (tokensOf source))).outcome.isWhole = true
deriving Decidable

/-- What the grammar derives as an expression is one. -/
theorem Grammar.Expression.isExpression {source : String} {expr : Expr Unit}
    (derived : Expression .assignment (beforeEnd (tokensOf source)) expr) :
    IsExpression source := by
  have ends : Ends .assignment [] := by simp [Ends]
  have clean := derived.clean ends
  rw [List.append_nil] at clean
  rw [IsExpression, clean.outcome_eq]
  rfl

namespace Reader

variable {α β : Type} [Labelled β α] {n : Nat} {given : List Nat}
  {reader : Reader (StateM Reference) β n} {plain : Reader Id α n} {next last : Reference}
  {notices : List Notice} {rest : List Token}

/-- What is read with numbers is read without labels. -/
theorem Reads.outcome (numbers : reader.Numbers given plain) {value : β}
    (reads : reader.Reads next value notices rest last) :
    plain.outcome = .done (Labelled.unlabelled value) notices rest := by
  obtain ⟨_, ran⟩ := reads
  rw [← numbers.agrees next, ran]
  rfl

/-- What is read without labels is read with numbers. -/
theorem exists_reads (numbers : reader.Numbers given plain) {value : α}
    (done : plain.outcome = .done value notices rest) (next : Reference) :
    ∃ labelled last, reader.Reads next labelled notices rest last := by
  rw [← numbers.agrees next] at done
  cases ran : StateT.run (m := Id) reader next with
  | mk reading last =>
      rw [ran] at done
      cases reading with
      | done labelled noticed left shorter =>
          cases done
          exact ⟨labelled, last, shorter, ran⟩
      | stuck => cases done

end Reader

/-- With numbers from the next one on, an expression is read of tokens, with passing
faults, whatever stands behind a semicolon that follows. -/
structure ReadsWhole (tokens : List Token) (next : Reference) (value : Expr Reference)
    (notices : List Notice) (last : Reference) : Prop where
  passing : ∀ notice ∈ notices, notice.Passes
  alone : (expression tokens).Reads next value notices [] last
  closed : ∀ semicolon : Token, semicolon.kind = .symbol .semicolon → ∀ behind,
    (expression (tokens ++ semicolon :: behind)).Reads next value notices
      (semicolon :: behind) last

theorem IsExpression.readsWhole {source : String} (whole : IsExpression source)
    (next : Reference) :
    ∃ value notices last, ReadsWhole (beforeEnd (tokensOf source)) next value notices last := by
  rw [IsExpression] at whole
  cases read : (expression (beforeEnd (tokensOf source))).outcome with
  | stuck => simp [read, Outcome.isWhole] at whole
  | done plain notices rest =>
      have ended : rest = [] := by simpa [read, Outcome.isWhole] using whole
      subst ended
      obtain ⟨value, last, alone⟩ := Reader.exists_reads (numbers_expression _) read next
      have closed (semicolon : Token) (isSemicolon : semicolon.kind = .symbol .semicolon)
          (behind : List Token) :=
        continues_expression isSemicolon behind _ next value notices [] last alone
      refine ⟨value, notices, last, ?_, alone, closed⟩
      -- In front of a semicolon only passing faults are noticed.
      have isSemicolon : (⟨.symbol .semicolon, ";", 1⟩ : Token).kind = .symbol .semicolon := rfl
      obtain ⟨outcome, mild, -, comes⟩ :=
        haltsAt_expression isSemicolon (beforeEnd (tokensOf source))
      have same := (comes []).symm.trans
        ((closed _ isSemicolon []).outcome (numbers_expression _))
      cases outcome with
      | done =>
          injection same with _ noticed
          exact noticed ▸ mild
      | stuck => cases same

namespace ReadsWhole

variable {tokens : List Token} {next last : Reference} {value : Expr Reference}
  {notices : List Notice} {semicolon : Token}

theorem starts (reads : ReadsWhole tokens next value notices last) :
    ∃ first rest, tokens = first :: rest ∧ Grammar.StartsExpression first := by
  have alone := reads.alone
  cases tokens with
  | nil => exact (Nat.not_lt_zero _ alone.length_lt).elim
  | cons first rest =>
      refine ⟨first, rest, rfl, ?_⟩
      by_contra noStart
      have plain := alone.outcome (numbers_expression _)
      rw [outcome_expression_of_stuck (outcome_prefixed_of_not_starts noStart rest)] at plain
      cases plain

end ReadsWhole

/-! ## Programs of one statement -/

/-- A declaration after which nothing is left is a whole program. -/
theorem run_allDeclarations {trailing : Bool} {first : Token} {rest : List Token}
    {reader : Reader (StateM Reference) (Stmt Reference) (rest.length + 1)}
    {stmt : Stmt Reference} {notices : List Notice} {next last : Reference}
    (declares : declaration trailing first rest = Declarer.ofReader reader)
    (reads : reader.Reads next stmt notices [] last) :
    StateT.run (m := Id) (allDeclarations trailing (first :: rest)) next =
      (([stmt], notices), last) := by
  obtain ⟨shorter, ran⟩ := reads
  have declared : StateT.run (m := Id) (Declarer.ofReader reader) next =
      (⟨some stmt, notices, [], shorter⟩, last) :=
    congrArg (fun run : Reading (Stmt Reference) (rest.length + 1) × Reference =>
      (Declared.ofReading run.1, run.2)) ran
  rw [allDeclarations, declares]
  simp only [StateT.run, bind, StateT.bind] at declared ⊢
  rw [declared]
  dsimp only
  rw [allDeclarations]
  show (([stmt], notices ++ []), last) = _
  rw [List.append_nil]

namespace ReadsWhole

variable {tokens : List Token} {next last : Reference} {value : Expr Reference}
  {notices : List Notice} {semicolon : Token}

theorem statement_alone (reads : ReadsWhole tokens next value notices last) :
    (expressionStatement true tokens).Reads next (.expression value) notices [] last := by
  rw [expressionStatement]
  refine Reader.reads_andPerhaps.2
    ⟨value, notices, [], last, reads.alone.length_lt, [], reads.alone, ?_, List.append_nil _⟩
  rw [Bool.true_and, List.isEmpty_nil, if_pos rfl]
  exact Reader.reads_still.2 ⟨rfl, rfl, rfl, rfl⟩

theorem statement_closed (reads : ReadsWhole tokens next value notices last) (trailing : Bool)
    (isSemicolon : semicolon.kind = .symbol .semicolon) :
    (expressionStatement trailing (tokens ++ [semicolon])).Reads next (.expression value) notices
      [] last := by
  have closed := reads.closed semicolon isSemicolon []
  rw [expressionStatement]
  refine Reader.reads_andPerhaps.2
    ⟨value, notices, [semicolon], last, closed.length_lt, [], closed, ?_, List.append_nil _⟩
  rw [List.isEmpty_cons, Bool.and_false, if_neg Bool.false_ne_true, Reader.reads_behind]
  exact Reader.reads_map.2
    ⟨semicolon, Reader.reads_expect (Token.isSymbol_iff.2 isSemicolon) _ [] last, rfl⟩

theorem statement_printed (reads : ReadsWhole tokens next value notices last)
    (isSemicolon : semicolon.kind = .symbol .semicolon) :
    (printStatement (tokens ++ [semicolon])).Reads next (.print value) notices [] last := by
  have closed := reads.closed semicolon isSemicolon []
  refine Reader.reads_andPerhaps.2
    ⟨value, notices, [semicolon], last, closed.length_lt, [], closed, ?_, List.append_nil _⟩
  rw [Reader.reads_behind]
  exact Reader.reads_map.2
    ⟨semicolon, Reader.reads_expect (Token.isSymbol_iff.2 isSemicolon) _ [] last, rfl⟩

/-- Faults that were noticed at a token are the same errors wherever the input ends. -/
theorem errors_eq (reads : ReadsWhole tokens next value notices last) (line : Nat) :
    notices.map (Notice.error line) = notices.map (Notice.error 1) :=
  List.map_congr_left fun notice member =>
    Notice.error_of_place (reads.passing notice member).2 line 1

/-- What starts like an expression is declared as an expression statement. -/
theorem declaration_eq (reads : ReadsWhole tokens next value notices last) (trailing : Bool)
    (behind : List Token) :
    ∃ first rest, tokens ++ behind = first :: rest ∧
      declaration (m := StateM Reference) trailing first rest =
        Declarer.ofReader (expressionStatement trailing (first :: rest)) := by
  obtain ⟨first, rest, rfl, starts⟩ := reads.starts
  refine ⟨first, rest ++ behind, rfl, ?_⟩
  rw [Grammar.declaration_of_startsStatement (.inl starts),
    Grammar.statement_of_startsExpression starts]

theorem run_alone (reads : ReadsWhole tokens next value notices last) :
    StateT.run (m := Id) (allDeclarations true tokens) next =
      (([.expression value], notices), last) := by
  obtain ⟨first, rest, same, declares⟩ := reads.declaration_eq true []
  rw [List.append_nil] at same
  have alone := reads.statement_alone
  rw [same] at alone ⊢
  exact run_allDeclarations declares alone

theorem run_closed (reads : ReadsWhole tokens next value notices last) (trailing : Bool)
    (isSemicolon : semicolon.kind = .symbol .semicolon) :
    StateT.run (m := Id) (allDeclarations trailing (tokens ++ [semicolon])) next =
      (([.expression value], notices), last) := by
  obtain ⟨first, rest, same, declares⟩ := reads.declaration_eq trailing [semicolon]
  have closed := reads.statement_closed trailing isSemicolon
  rw [same] at closed ⊢
  exact run_allDeclarations declares closed

theorem run_printed (reads : ReadsWhole tokens next value notices last) (trailing : Bool)
    (isSemicolon : semicolon.kind = .symbol .semicolon) {opening : Token}
    (isPrint : opening.kind = .keyword .printWord) :
    StateT.run (m := Id) (allDeclarations trailing (opening :: (tokens ++ [semicolon]))) next =
      (([.print value], notices), last) := by
  have declares : declaration (m := StateM Reference) trailing opening (tokens ++ [semicolon]) =
      Declarer.ofReader (printStatement (tokens ++ [semicolon])).behind := by
    rw [Grammar.declaration_of_startsStatement (by simp [Grammar.StartsStatement, isPrint]),
      statement]
    simp only [isPrint]
  exact run_allDeclarations declares (Reader.reads_behind.2 (reads.statement_printed isSemicolon))

end ReadsWhole

/-! ## The three texts -/

/-- The word `print` in front of a text is one more token of its first line. -/
theorem scan_print (source : String) :
    scan ("print " ++ source) = .token ⟨.keyword .printWord, "print", 1⟩ :: scan source := by
  have ends : (TokenKind.keyword .printWord).EndsBefore (' ' :: source.toList) := by
    rintro _ ⟨⟩
    decide
  obtain ⟨first, more, same, word⟩ := cut_of_spelled (.keyword .printWord) ends
  have blank : cut ' ' source.toList = ⟨⟨[' '], .blank⟩, source.toList⟩ := rfl
  have text : ("print " ++ source).toList = first :: (more ++ ' ' :: source.toList) := by
    rw [← List.cons_append, ← same, String.toList_append]
    rfl
  rw [scan, text, segments, word, segments, blank]
  rfl

theorem lexicalErrorsOf_print (source : String) :
    lexicalErrorsOf ("print " ++ source) = lexicalErrorsOf source := by
  rw [lexicalErrorsOf, scan_print]
  rfl

theorem tokens_print (source : String) : beforeEnd (tokensOf ("print " ++ source)) =
    ⟨.keyword .printWord, "print", 1⟩ :: beforeEnd (tokensOf source) := by
  rw [tokensOf, scan_print]
  rfl

theorem append_semicolon (source : String) : source ++ "\n;" = source ++ "\n" ++ ";" := by
  rw [String.append_assoc]
  rfl

/-- A text without lexical errors with a semicolon on a line of its own below it. -/
theorem tokens_semicolon {source : String} (quiet : lexicalErrorsOf source = []) :
    beforeEnd (tokensOf (source ++ "\n;")) =
      beforeEnd (tokensOf source) ++ [⟨.symbol .semicolon, ";", 1 + lineCount source⟩] := by
  have below : beforeEnd (tokensOf ";") = [⟨.symbol .semicolon, ";", 1⟩] := by decide +kernel
  rw [append_semicolon, tokens_newline quiet, below]
  rfl

theorem lexicalErrorsOf_semicolon {source : String} (quiet : lexicalErrorsOf source = []) :
    lexicalErrorsOf (source ++ "\n;") = [] := by
  have below : lexicalErrorsOf ";" = [] := by decide +kernel
  rw [append_semicolon, lexicalErrorsOf_newline quiet, below]
  rfl

/-! ## The same session -/

/-- A print statement does in one more step what a line does that is just its
expression. -/
theorem interpret_print (distances : Distances) (allowance : Nat) (expr : Expr Reference) :
    interpret distances (allowance + 1) [.print expr] =
      Entry.line.computation distances allowance [.expression expr] := by
  funext machine
  show EStateM.bind (EStateM.bind (evaluate distances allowance expr)
      fun value => EStateM.bind (print value) fun _ => pure Completion.normal)
        (fun _ => pure ()) machine =
    EStateM.bind (evaluate distances allowance expr) print machine
  simp only [EStateM.bind]
  cases evaluate distances allowance expr machine with
  | error interrupt later => rfl
  | ok value later =>
      dsimp only
      cases print value later <;> rfl

namespace Session

/-- What becomes of a text is decided by its errors, by the state in which its analysis ends
and by what is run of it. -/
theorem enter_congr {session : Session} {entry entry' : Entry} {source source' : String}
    {allowance allowance' : Nat}
    (errors : lexicalErrorsOf source ++ (session.read entry source).1.errors =
      lexicalErrorsOf source' ++ (session.read entry' source').1.errors)
    (last : (session.text entry source).last = (session.text entry' source').last)
    (next : (session.analysed entry source).nextReference =
      (session.analysed entry' source').nextReference)
    (runs : ∀ distances, entry.computation distances allowance (session.program entry source) =
      entry'.computation distances allowance' (session.program entry' source')) :
    session.enter allowance entry source = session.enter allowance' entry' source' := by
  have analysed : session.analysed entry source = session.analysed entry' source' := by
    rw [Session.analysed, last]
    exact congrArg _ next
  rw [errors_read, errors_read] at errors
  rw [enter_eq, enter_eq, errors, last, analysed, runs]

variable {session : Session} {source : String} {value : Expr Reference} {notices : List Notice}
  {last : Reference}

/-- What a session reads is known from the declarations that are read. -/
theorem read_of_run {entry : Entry} {stmt : Stmt Reference}
    (ran : StateT.run (m := Id) (allDeclarations (entry = .line) (beforeEnd (tokensOf source)))
      session.nextReference = (([stmt], notices), last)) :
    session.read entry source =
      (⟨[stmt], notices.map (Notice.error (endLine (tokensOf source)))⟩,
        { session with nextReference := last }) := by
  unfold read Program.read
  simp only [StateT.run, bind, StateT.bind] at ran ⊢
  rw [ran]
  rfl

theorem read_alone
    (reads : ReadsWhole (beforeEnd (tokensOf source)) session.nextReference value notices last) :
    session.read .line source = (⟨[.expression value], notices.map (Notice.error 1)⟩,
      { session with nextReference := last }) := by
  have read : session.read .line source = _ := read_of_run reads.run_alone
  rw [read, reads.errors_eq]

theorem read_closed
    (reads : ReadsWhole (beforeEnd (tokensOf source)) session.nextReference value notices last)
    (quiet : lexicalErrorsOf source = []) :
    session.read .line (source ++ "\n;") = (⟨[.expression value], notices.map (Notice.error 1)⟩,
      { session with nextReference := last }) := by
  let semicolon : Token := ⟨.symbol .semicolon, ";", 1 + lineCount source⟩
  have ran := reads.run_closed true (show semicolon.kind = _ from rfl)
  rw [← tokens_semicolon quiet] at ran
  have read : session.read .line (source ++ "\n;") = _ := read_of_run ran
  rw [read, reads.errors_eq]

theorem read_printed
    (reads : ReadsWhole (beforeEnd (tokensOf source)) session.nextReference value notices last)
    (quiet : lexicalErrorsOf source = []) :
    session.read .script ("print " ++ source ++ "\n;") =
      (⟨[.print value], notices.map (Notice.error 1)⟩,
        { session with nextReference := last }) := by
  have quiet' : lexicalErrorsOf ("print " ++ source) = [] :=
    (lexicalErrorsOf_print source).trans quiet
  let semicolon : Token := ⟨.symbol .semicolon, ";", 1 + lineCount ("print " ++ source)⟩
  let opening : Token := ⟨.keyword .printWord, "print", 1⟩
  have ran := reads.run_printed false (show semicolon.kind = _ from rfl)
    (show opening.kind = _ from rfl)
  rw [← List.cons_append, ← tokens_print, ← tokens_semicolon quiet'] at ran
  have read : session.read .script ("print " ++ source ++ "\n;") = _ := read_of_run ran
  rw [read, reads.errors_eq]

/-- The value of a line is printed as by a print statement.  For every session and every
text without lexical errors whose tokens are one expression: with a semicolon on a line
below it the text gives the same session and the same failure as without, and so does a
script that prints it, which takes one step more. -/
theorem runLine_prints (quiet : lexicalErrorsOf source = []) (whole : IsExpression source)
    (session : Session) (allowance : Nat) :
    session.runLine allowance (source ++ "\n;") = session.runLine allowance source ∧
      session.run (allowance + 1) ("print " ++ source ++ "\n;") =
        session.runLine allowance source := by
  obtain ⟨value, notices, last, reads⟩ := whole.readsWhole session.nextReference
  have quiet' : lexicalErrorsOf ("print " ++ source) = [] :=
    (lexicalErrorsOf_print source).trans quiet
  have none := lexicalErrorsOf_semicolon quiet
  have none' := lexicalErrorsOf_semicolon quiet'
  have alone := read_alone reads
  have closed := read_closed reads quiet
  have printed := read_printed reads quiet
  constructor
  · refine enter_congr ?_ ?_ ?_ fun distances => ?_
    · rw [quiet, none, closed, alone]
    · rw [text, text, program, program, closed, alone]
    · rw [analysed, analysed, closed, alone]
    · rw [program, program, closed, alone]
  · refine enter_congr ?_ ?_ ?_ fun distances => ?_
    · rw [quiet, none', printed, alone]
    · rw [text, text, program, program, printed, alone]
      rfl
    · rw [analysed, analysed, printed, alone]
    · rw [program, program, printed, alone]
      exact interpret_print distances allowance _

/-- An expression that prints something and then fails, with a comment behind it. -/
def noisySum : String :=
  "1+f(2)// fails"

/-- A session in which the expression can be evaluated. -/
def afterNoisy : Session :=
  (start.enter 100 .line "fun f(a)\x7bprint a;\x7d").1

theorem noisySum_prints : lexicalErrorsOf noisySum = [] ∧ IsExpression noisySum ∧
    afterNoisy.runLine 100 (noisySum ++ "\n;") = afterNoisy.runLine 100 noisySum ∧
      afterNoisy.run 101 ("print " ++ noisySum ++ "\n;") = afterNoisy.runLine 100 noisySum := by
  have quiet : lexicalErrorsOf noisySum = [] := by decide +kernel
  have whole : IsExpression noisySum := by decide +kernel
  exact ⟨quiet, whole, runLine_prints quiet whole afterNoisy 100⟩

end Session

end Lox
