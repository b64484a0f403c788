/-
# Faulty sentences do not disturb each other

A *sentence* is what a simple statement looks like from afar: a word that opens it or
none, tokens that neither start a statement nor belong to a block, and a semicolon.
Whether it can be read is left open, so that a sentence may be faulty in any way.

No expression takes the semicolon (`HaltsAt`).  Where a sentence cannot be read, it is
therefore stopped at its semicolon or in front of it; and the skipping, which passes the
token at which a fault was noticed, ends behind that semicolon, because nothing before
it is a place to stop.  So the reading goes on behind a sentence in any case, and what
comes of it does not depend on the tokens that follow (`Sentence.Comes`).

Sentences in a row then give the statements and the errors of each of them alone.
-/

import Lox.Proofs.Grammar.Prefix
import Lox.Proofs.Recovery.Halting

namespace Lox

/-- The token may stand inside a sentence: it is not the end of it, it does not belong to
a block, and the skipping does not stop there. -/
def Token.IsPlain (token : Token) : Prop :=
  token.isSymbol .semicolon = false ∧ token.isSymbol .leftBrace = false ∧
    token.isSymbol .rightBrace = false ∧ token.isEnd = false ∧ startsStatement token = false
deriving Decidable

/-- The token opens a simple statement. -/
def Token.OpensSentence (token : Token) : Prop :=
  token.kind = .keyword .printWord ∨ token.kind = .keyword .varWord ∨
    token.kind = .keyword .returnWord
deriving Decidable

/-- Tokens up to a semicolon that look like a simple statement. -/
structure Sentence where
  opening : Option Token
  inside : List Token
  semicolon : Token
  opens : ∀ token ∈ opening, token.OpensSentence
  plain : ∀ token ∈ inside, token.IsPlain
  closes : semicolon.kind = .symbol .semicolon

/-- The tokens of a sentence. -/
def Sentence.tokens (sentence : Sentence) : List Token :=
  sentence.opening.toList ++ (sentence.inside ++ [sentence.semicolon])

/-! ## Skipping -/

theorem skipAfter_of_semicolon {semicolon : Token}
    (isSemicolon : semicolon.kind = .symbol .semicolon) (behind : List Token) :
    skipAfter semicolon behind = behind := by
  cases behind with
  | nil => rfl
  | cons first rest =>
      have found : semicolon.isSymbol .semicolon = true := Token.isSymbol_iff.2 isSemicolon
      rw [skipAfter, found, Bool.true_or, if_pos rfl]

theorem skipAfter_plain {semicolon : Token} (isSemicolon : semicolon.kind = .symbol .semicolon)
    {left : List Token} (plain : ∀ token ∈ left, token.IsPlain) {previous : Token}
    (further : previous.isSymbol .semicolon = false) (behind : List Token) :
    skipAfter previous (left ++ semicolon :: behind) = behind := by
  induction left generalizing previous with
  | nil =>
      have noStart : startsStatement semicolon = false := by simp [startsStatement, isSemicolon]
      rw [List.nil_append, skipAfter, further, noStart, Bool.or_self,
        if_neg Bool.false_ne_true, skipAfter_of_semicolon isSemicolon]
  | cons first rest ih =>
      obtain ⟨⟨noSemicolon, -, -, -, noStart⟩, others⟩ := List.forall_mem_cons.1 plain
      rw [List.cons_append, skipAfter, further, noStart, Bool.or_self,
        if_neg Bool.false_ne_true, ih others noSemicolon]

/-- Skipping from inside a sentence ends behind its semicolon. -/
theorem resume_plain {semicolon : Token} (isSemicolon : semicolon.kind = .symbol .semicolon)
    {left : List Token} (plain : ∀ token ∈ left, token.IsPlain) (behind : List Token) :
    resume (left ++ semicolon :: behind) = behind := by
  cases left with
  | nil => exact skipAfter_of_semicolon isSemicolon behind
  | cons first rest =>
      obtain ⟨⟨noSemicolon, -⟩, others⟩ := List.forall_mem_cons.1 plain
      exact skipAfter_plain isSemicolon others noSemicolon behind

/-! ## Reading up to the semicolon -/

section

variable {α β : Type} {semicolon : Token} {front : List Token}

/-- Tokens are read, and then a semicolon and others.  The semicolon is the last token that
is read, or the reading is stopped there at the latest; and what comes of it does not
depend on the tokens behind. -/
inductive ClosesAt (semicolon : Token) (front : List Token) (read : List Token → Outcome α) :
    Prop where
  | done (value : α) (notices : List Notice) (passing : ∀ notice ∈ notices, notice.Passes)
      (comes : ∀ behind, read (semicolon :: behind) = .done value notices behind)
  | stuck (notices : List Notice) (fault : SyntaxFault) (left : List Token)
      (passing : ∀ notice ∈ notices, notice.Passes) (serious : ¬ fault.IsPassing)
      (inside : left <:+ front) (comes : ∀ behind,
        read (semicolon :: behind) = .stuck notices fault (left ++ semicolon :: behind))

namespace ClosesAt

variable {read read' : List Token → Outcome α}

theorem congr (closes : ClosesAt semicolon front read)
    (same : ∀ behind, read' (semicolon :: behind) = read (semicolon :: behind)) :
    ClosesAt semicolon front read' := by
  cases closes with
  | done value notices passing comes =>
      exact .done value notices passing fun behind => (same behind).trans (comes behind)
  | stuck notices fault left passing serious inside comes =>
      exact .stuck notices fault left passing serious inside fun behind =>
        (same behind).trans (comes behind)

theorem cons (closes : ClosesAt semicolon front read) (first : Token) :
    ClosesAt semicolon (first :: front) read := by
  cases closes with
  | done value notices passing comes => exact .done value notices passing comes
  | stuck notices fault left passing serious inside comes =>
      exact .stuck notices fault left passing serious
        (inside.trans (List.suffix_cons first front)) comes

theorem map (closes : ClosesAt semicolon front read) (f : α → β) :
    ClosesAt semicolon front fun tail => (read tail).map f := by
  cases closes with
  | done value notices passing comes =>
      exact .done (f value) notices passing fun behind => congrArg (Outcome.map f) (comes behind)
  | stuck notices fault left passing serious inside comes =>
      exact .stuck notices fault left passing serious inside fun behind =>
        congrArg (Outcome.map f) (comes behind)

end ClosesAt

/-- What halts at a semicolon at the latest closes with it if what follows does. -/
theorem HaltsAt.closes {read : List Token → Outcome α} (halts : HaltsAt semicolon front read)
    (next : α → List Token → Outcome β)
    (further : ∀ value left, left <:+ front →
      ClosesAt semicolon left fun tail => next value (left ++ tail)) :
    ClosesAt semicolon front fun tail => (read tail).bind next := by
  obtain ⟨outcome, mild, inside, comes⟩ := halts
  cases outcome with
  | stuck notices fault left =>
      exact .stuck notices fault left mild.1 mild.2 inside fun behind =>
        congrArg (·.bind next) (comes behind)
  | done value notices left =>
      have goesOn (behind : List Token) : (read (semicolon :: behind)).bind next =
          (next value (left ++ semicolon :: behind)).noticing notices :=
        congrArg (·.bind next) (comes behind)
      cases further value left inside with
      | done value' notices' passing comes' =>
          refine .done value' (notices ++ notices') (List.forall_mem_append.2 ⟨mild, passing⟩)
            fun behind => ?_
          rw [goesOn, comes']
          rfl
      | stuck notices' fault left' passing serious inside' comes' =>
          refine .stuck (notices ++ notices') fault left'
            (List.forall_mem_append.2 ⟨mild, passing⟩) serious (inside'.trans inside)
            fun behind => ?_
          rw [goesOn, comes']
          rfl

variable (isSemicolon : semicolon.kind = .symbol .semicolon)
  (plain : ∀ token ∈ front, token.IsPlain)

include isSemicolon plain

/-- The semicolon is asked for. -/
theorem closesAt_expect (fault : SyntaxFault) (serious : ¬ fault.IsPassing) :
    ClosesAt semicolon front fun tail =>
      (expect (·.isSymbol .semicolon) fault (front ++ tail)).outcome := by
  cases front with
  | nil =>
      refine .done semicolon [] (List.forall_mem_nil _) fun behind => ?_
      rw [List.nil_append, outcome_expect_cons, if_pos (Token.isSymbol_iff.2 isSemicolon)]
  | cons first rest =>
      refine .stuck [] fault (first :: rest) (List.forall_mem_nil _) serious List.suffix_rfl
        fun behind => ?_
      obtain ⟨noSemicolon, -⟩ := plain first List.mem_cons_self
      rw [List.cons_append, outcome_expect_cons, noSemicolon, if_neg Bool.false_ne_true]

/-- An expression and the semicolon behind it. -/
theorem closesAt_expression (fault : SyntaxFault) (serious : ¬ fault.IsPassing)
    (f : Expr Unit → α) :
    ClosesAt semicolon front fun tail => (expression (front ++ tail)).outcome.bind fun expr rest =>
      (expect (·.isSymbol .semicolon) fault rest).outcome.map fun _ => f expr :=
  (haltsAt_expression isSemicolon front).closes _ fun _ _ inside =>
    (closesAt_expect isSemicolon (fun token member => plain token (inside.subset member))
      fault serious).map _

theorem closesAt_printStatement :
    ClosesAt semicolon front fun tail => (printStatement (front ++ tail)).outcome := by
  refine (closesAt_expression isSemicolon plain .printNotClosed (by decide) .print).congr
    fun behind => ?_
  rw [printStatement, Reader.outcome_andThen]
  simp only [Reader.outcome_map]

theorem closesAt_expressionStatement (trailing : Bool) :
    ClosesAt semicolon front fun tail =>
      (expressionStatement trailing (front ++ tail)).outcome := by
  refine ((haltsAt_expression isSemicolon front).closes (fun expr rest =>
    (if trailing && rest.isEmpty then .still (.expression expr) rest
      else ((expect (·.isSymbol .semicolon) .expressionNotClosed rest).map fun _ =>
        Stmt.expression expr).behind : Reader Id (Stmt Unit) (rest.length + 1)).outcome)
      fun expr left inside => ?_).congr fun behind => ?_
  · refine ((closesAt_expect isSemicolon (fun token member => plain token (inside.subset member))
      .expressionNotClosed (by decide)).map fun _ => Stmt.expression expr).congr fun behind => ?_
    have more : (left ++ semicolon :: behind).isEmpty = false := by simp
    rw [more, Bool.and_false, if_neg Bool.false_ne_true, Reader.outcome_behind,
      Reader.outcome_map]
  · rw [expressionStatement, Reader.outcome_andPerhaps]

theorem closesAt_returnStatement (keyword : Token) :
    ClosesAt semicolon front fun tail => (returnStatement keyword (front ++ tail)).outcome := by
  have value : HaltsAt semicolon front fun tail =>
      (expressionUnless .semicolon (front ++ tail)).outcome := by
    cases front with
    | nil =>
        refine (HaltsAt.still semicolon none []).congr fun behind => ?_
        rw [List.nil_append, expressionUnless, if_pos (Token.isSymbol_iff.2 isSemicolon)]
        rfl
    | cons first rest =>
        refine ((haltsAt_expression isSemicolon (first :: rest)).map some).congr fun behind => ?_
        obtain ⟨noSemicolon, -⟩ := plain first List.mem_cons_self
        rw [List.cons_append, expressionUnless, noSemicolon, if_neg Bool.false_ne_true,
          Reader.outcome_behind, Reader.outcome_map]
  refine (value.closes (fun value rest =>
    (expect (·.isSymbol .semicolon) .returnNotClosed rest).outcome.map fun _ =>
      Stmt.returning keyword value) fun value left inside => ?_).congr fun behind => ?_
  · exact (closesAt_expect isSemicolon (fun token member => plain token (inside.subset member))
      .returnNotClosed (by decide)).map _
  · rw [returnStatement, Reader.outcome_andThen]
    simp only [Reader.outcome_map]

theorem closesAt_initialValue :
    ClosesAt semicolon front fun tail => (initialValue (front ++ tail)).outcome := by
  have bare := (closesAt_expect isSemicolon plain .variableNotClosed (by decide)).map
    fun _ => (none : Option (Expr Unit))
  cases front with
  | nil =>
      refine bare.congr fun behind => ?_
      rw [List.nil_append, initialValue, isSymbol_eq_false_of_semicolon isSemicolon _ (by decide),
        if_neg Bool.false_ne_true, Reader.outcome_map]
  | cons first rest =>
      cases isEqual : first.isSymbol .equal with
      | true =>
          obtain ⟨-, others⟩ := List.forall_mem_cons.1 plain
          refine ((closesAt_expression isSemicolon others .variableNotClosed (by decide)
            some).cons first).congr fun behind => ?_
          rw [List.cons_append, initialValue, if_pos isEqual, Reader.outcome_behind,
            Reader.outcome_andThen]
          simp only [Reader.outcome_map]
      | false =>
          refine bare.congr fun behind => ?_
          rw [List.cons_append, initialValue, isEqual, if_neg Bool.false_ne_true,
            Reader.outcome_map]

theorem closesAt_varDeclaration :
    ClosesAt semicolon front fun tail => (varDeclaration (front ++ tail)).outcome := by
  have noName : semicolon.isIdentifier = false := by simp [Token.isIdentifier, isSemicolon]
  refine ((haltsAt_expect noName .noVariableName (by decide) front).closes (fun name rest =>
    (initialValue rest).outcome.map (.varDecl name)) fun name left inside => ?_).congr
      fun behind => ?_
  · exact (closesAt_initialValue isSemicolon fun token member =>
      plain token (inside.subset member)).map _
  · rw [varDeclaration, Reader.outcome_andThen]
    simp only [Reader.outcome_map]

end

/-! ## Sentences as declarations -/

/-- What starts no statement and no block is read as an expression statement. -/
theorem declaration_of_not_starts {first : Token} (noStart : startsStatement first = false)
    (noBrace : first.isSymbol .leftBrace = false) (trailing : Bool) (tokens : List Token) :
    declaration trailing first tokens =
      Declarer.ofReader (expressionStatement trailing (first :: tokens)) := by
  have noKeyword {keyword : Keyword} (same : first.kind = .keyword keyword)
      (starts : startsStatement ⟨.keyword keyword, first.lexeme, first.line⟩ = true) : False := by
    rw [startsStatement, same] at noStart
    exact Bool.false_ne_true (noStart.symm.trans starts)
  have isStatement : declaration trailing first tokens =
      Declarer.ofReader (statement trailing (first :: tokens)) := by
    rw [declaration]
    congr 1
    split
    · next same => exact (noKeyword same rfl).elim
    · next same => exact (noKeyword same rfl).elim
    · next same => exact (noKeyword same rfl).elim
    · rfl
  rw [isStatement, statement]
  congr 1
  split
  · next same => exact (noKeyword same rfl).elim
  · next same => exact (noKeyword same rfl).elim
  · next same => exact (noKeyword same rfl).elim
  · next same => exact (noKeyword same rfl).elim
  · next same =>
      rw [Token.isSymbol_iff.2 same] at noBrace
      cases noBrace
  · next same => exact (noKeyword same rfl).elim
  · rfl

namespace Sentence

/-- What may come of a sentence: one statement and passing faults, or no statement and,
behind such faults, the one that stopped the reading.  Each has a place. -/
def Yields (statement : Option (Stmt Unit)) (notices : List Notice) : Prop :=
  (statement.isSome ∧ ∀ notice ∈ notices, notice.Passes) ∨
    statement = none ∧ ∃ passing fault place, notices = passing ++ [⟨fault, some place⟩] ∧
      (∀ notice ∈ passing, notice.Passes) ∧ ¬ fault.IsPassing

/-- A statement, if there is one, and notices come of a sentence, whatever follows it; and
the reading goes on with what follows. -/
def Comes (sentence : Sentence) (trailing : Bool) (statement : Option (Stmt Unit))
    (notices : List Notice) : Prop :=
  ∀ behind, declarations trailing (sentence.tokens ++ behind) =
    (statement.toList ++ (declarations trailing behind).1,
      notices ++ (declarations trailing behind).2)

/-- The declaration that a sentence is read as closes with its semicolon. -/
theorem exists_closesAt (sentence : Sentence) (trailing : Bool) :
    ∃ read, ClosesAt sentence.semicolon sentence.inside read ∧
      ∀ behind, ∃ first rest, ∃ reading : Reader Id (Stmt Unit) (List.length rest + 1),
        sentence.tokens ++ behind = first :: rest ∧
          declaration trailing first rest = Declarer.ofReader reading ∧
            reading.outcome = read (sentence.semicolon :: behind) := by
  obtain ⟨opening, inside, semicolon, opens, plain, isSemicolon⟩ := sentence
  cases opening with
  | none =>
      refine ⟨_, closesAt_expressionStatement isSemicolon plain trailing, fun behind => ?_⟩
      cases inside with
      | nil =>
          have noStart : startsStatement semicolon = false := by
            simp [startsStatement, isSemicolon]
          have noBrace := isSymbol_eq_false_of_semicolon isSemicolon .leftBrace (by decide)
          exact ⟨semicolon, behind, _, rfl,
            declaration_of_not_starts noStart noBrace trailing behind, rfl⟩
      | cons first rest =>
          obtain ⟨-, noBrace, -, -, noStart⟩ := plain first List.mem_cons_self
          refine ⟨first, rest ++ semicolon :: behind, _, ?_,
            declaration_of_not_starts noStart noBrace trailing _, rfl⟩
          simp [tokens]
  | some first =>
      have tokens (behind : List Token) :
          tokens ⟨some first, inside, semicolon, opens, plain, isSemicolon⟩ ++ behind =
            first :: (inside ++ semicolon :: behind) := by
        simp [tokens]
      rcases opens first rfl with isPrint | isVar | isReturn
      · refine ⟨_, closesAt_printStatement isSemicolon plain, fun behind =>
          ⟨first, _, statement trailing (first :: (inside ++ semicolon :: behind)), tokens behind,
            ?_, ?_⟩⟩
        · rw [declaration]
          simp only [isPrint]
        · rw [statement]
          simp only [isPrint, Reader.outcome_behind]
      · refine ⟨_, closesAt_varDeclaration isSemicolon plain, fun behind =>
          ⟨first, _, (varDeclaration (inside ++ semicolon :: behind)).behind, tokens behind,
            ?_, Reader.outcome_behind _⟩⟩
        rw [declaration]
        simp only [isVar]
      · refine ⟨_, closesAt_returnStatement isSemicolon plain first, fun behind =>
          ⟨first, _, statement trailing (first :: (inside ++ semicolon :: behind)), tokens behind,
            ?_, ?_⟩⟩
        · rw [declaration]
          simp only [isReturn]
        · rw [statement]
          simp only [isReturn]

/-- What comes of a sentence is one of the two, and its semicolon is the last token that it
takes, also if some of its tokens are skipped. -/
theorem exists_comes (sentence : Sentence) (trailing : Bool) :
    ∃ statement notices, Yields statement notices ∧ sentence.Comes trailing statement notices := by
  obtain ⟨read, closes, declared⟩ := sentence.exists_closesAt trailing
  cases closes with
  | done value notices passing comes =>
      refine ⟨some value, notices, .inl ⟨rfl, passing⟩, fun behind => ?_⟩
      obtain ⟨first, rest, reading, tokens, same, outcome⟩ := declared behind
      obtain ⟨found, noticed, left⟩ := Declarer.ofReader_done (outcome.trans (comes behind))
      rw [tokens, declarations_cons, same, found, noticed, left]
  | stuck notices fault left passing serious inside comes =>
      refine ⟨none, notices ++ [⟨fault, some (left.head?.getD sentence.semicolon)⟩],
        .inr ⟨rfl, notices, fault, _, rfl, passing, serious⟩, fun behind => ?_⟩
      obtain ⟨first, rest, reading, tokens, same, outcome⟩ := declared behind
      obtain ⟨found, noticed, skipped⟩ := Declarer.ofReader_stuck (outcome.trans (comes behind))
      have place : (left ++ sentence.semicolon :: behind).head? =
          some (left.head?.getD sentence.semicolon) := by
        cases left <;> rfl
      have left_plain : ∀ token ∈ left, token.IsPlain :=
        fun token member => sentence.plain token (inside.subset member)
      rw [tokens, declarations_cons, same, found, noticed, skipped, place,
        resume_plain sentence.closes left_plain]

/-- No token of a sentence is an end mark. -/
theorem noMark (sentence : Sentence) : ∀ token ∈ sentence.tokens, token.isEnd = false := by
  have opening : ∀ token ∈ sentence.opening.toList, token.isEnd = false := by
    intro token member
    rcases sentence.opens token (Option.mem_toList.1 member) with same | same | same
    · simp [Token.isEnd, same]
    · simp [Token.isEnd, same]
    · simp [Token.isEnd, same]
  have inside : ∀ token ∈ sentence.inside, token.isEnd = false := by
    intro token member
    obtain ⟨-, -, -, noEnd, -⟩ := sentence.plain token member
    exact noEnd
  have last : sentence.semicolon.isEnd = false := by simp [Token.isEnd, sentence.closes]
  exact List.forall_mem_append.2 ⟨opening,
    List.forall_mem_append.2 ⟨inside, List.forall_mem_singleton.2 last⟩⟩

end Sentence

/-! ## Sentences in a row -/

/-- The fault is one that does not stop the reading of an expression. -/
def StaticError.IsPassing (error : StaticError) : Prop :=
  ∃ fault place, error = .grammatical fault place ∧ fault.IsPassing

/-- Exactly one statement and no error that stops a reading, or no statement and exactly one
such error, which is the last one. -/
def Program.IsIsolated (program : Program) : Prop :=
  (∃ statement, program.statements = [statement] ∧ ∀ error ∈ program.errors, error.IsPassing) ∨
    program.statements = [] ∧ ∃ passing last, program.errors = passing ++ [last] ∧
      (∀ error ∈ passing, error.IsPassing) ∧ ¬ last.IsPassing

/-- With a place of its own a notice is the same error, wherever the input ends. -/
theorem Notice.error_of_place {notice : Notice} (placed : notice.place.isSome)
    (line other : Nat) : notice.error line = notice.error other := by
  obtain ⟨place, same⟩ := Option.isSome_iff_exists.1 placed
  rw [error, error, same, Option.getD_some, Option.getD_some]

theorem Notice.Passes.error {notice : Notice} (passes : notice.Passes) (line : Nat) :
    (notice.error line).IsPassing :=
  ⟨notice.fault, _, rfl, passes.1⟩

namespace Sentence

variable {sentence : Sentence} {trailing : Bool} {statement : Option (Stmt Unit)}
  {notices : List Notice}

theorem Yields.placed (yields : Yields statement notices) :
    ∀ notice ∈ notices, notice.place.isSome := by
  rcases yields with ⟨-, passing⟩ | ⟨-, passing, fault, place, rfl, passes, -⟩
  · exact fun notice member => (passing notice member).2
  · exact List.forall_mem_append.2
      ⟨fun notice member => (passes notice member).2, List.forall_mem_singleton.2 rfl⟩

/-- The program that a sentence alone is read as. -/
theorem Comes.ofTokens (comes : sentence.Comes trailing statement notices)
    (yields : Yields statement notices) (line : Nat) :
    Program.ofTokens trailing sentence.tokens =
      ⟨statement.toList, notices.map (Notice.error line)⟩ := by
  have alone := comes []
  rw [List.append_nil, declarations_nil, List.append_nil, List.append_nil] at alone
  rw [Program.ofTokens_eq, beforeEnd_eq_self sentence.noMark, alone]
  refine congrArg (LabelledProgram.mk _) (List.map_congr_left fun notice member => ?_)
  exact Notice.error_of_place (yields.placed notice member) _ line

theorem Yields.isIsolated (yields : Yields statement notices) (line : Nat) :
    Program.IsIsolated ⟨statement.toList, notices.map (Notice.error line)⟩ := by
  rcases yields with ⟨found, passing⟩ | ⟨rfl, passing, fault, place, rfl, passes, serious⟩
  · obtain ⟨statement, rfl⟩ := Option.isSome_iff_exists.1 found
    exact .inl ⟨statement, rfl, List.forall_mem_map.2 fun notice member =>
      (passing notice member).error line⟩
  · refine .inr ⟨rfl, passing.map (Notice.error line), .grammatical fault place, ?_,
      List.forall_mem_map.2 fun notice member => (passes notice member).error line, ?_⟩
    · rw [List.map_append]
      rfl
    · rintro ⟨_, _, same, isPassing⟩
      cases same
      exact serious isPassing

end Sentence

/-- The errors of sentences in a row, each of them read alone, with the line on which the
input ends left out of account. -/
theorem declarations_sentences (trailing : Bool) (sentences : List Sentence) (line : Nat) :
    (declarations trailing (sentences.flatMap Sentence.tokens)).1 = sentences.flatMap
        (fun sentence => (Program.ofTokens trailing sentence.tokens).statements) ∧
      (declarations trailing (sentences.flatMap Sentence.tokens)).2.map (Notice.error line) =
        sentences.flatMap fun sentence => (Program.ofTokens trailing sentence.tokens).errors := by
  induction sentences with
  | nil =>
      rw [List.flatMap_nil, declarations_nil]
      exact ⟨rfl, rfl⟩
  | cons sentence others ih =>
      obtain ⟨statement, notices, yields, comes⟩ := sentence.exists_comes trailing
      rw [List.flatMap_cons, List.flatMap_cons, List.flatMap_cons, comes,
        comes.ofTokens yields line, List.map_append, ih.1, ih.2]
      exact ⟨rfl, rfl⟩

/-- Reading sentences in a row gives the statements and the errors of each sentence read
alone, one after the other; and a sentence gives either exactly one statement or none and
exactly one error that stopped the reading, behind errors that did not. -/
theorem sentences_apart (trailing : Bool) (sentences : List Sentence) :
    Program.ofTokens trailing (sentences.flatMap Sentence.tokens) =
      ⟨sentences.flatMap fun sentence => (Program.ofTokens trailing sentence.tokens).statements,
        sentences.flatMap fun sentence => (Program.ofTokens trailing sentence.tokens).errors⟩ ∧
    ∀ sentence : Sentence, (Program.ofTokens trailing sentence.tokens).IsIsolated := by
  constructor
  · have noMark : ∀ token ∈ sentences.flatMap Sentence.tokens, token.isEnd = false := by
      intro token member
      obtain ⟨sentence, -, inside⟩ := List.mem_flatMap.1 member
      exact sentence.noMark token inside
    obtain ⟨statements, errors⟩ := declarations_sentences trailing sentences
      (endLine (sentences.flatMap Sentence.tokens))
    rw [Program.ofTokens_eq, beforeEnd_eq_self noMark, ← statements, ← errors]
  · intro sentence
    obtain ⟨statement, notices, yields, comes⟩ := sentence.exists_comes trailing
    rw [comes.ofTokens yields (endLine [])]
    exact yields.isIsolated _

/-- Three sentences: one that assigns to a number, one that ends too early, one without a
fault. -/
def threeSentences : List Sentence :=
  [⟨none, [⟨.identifier, "a", 1⟩, ⟨.symbol .plus, "+", 1⟩, ⟨.identifier, "b", 1⟩,
      ⟨.symbol .equal, "=", 1⟩, ⟨.identifier, "c", 1⟩], ⟨.symbol .semicolon, ";", 1⟩,
      by decide, by decide, rfl⟩,
    ⟨some ⟨.keyword .varWord, "var", 2⟩, [⟨.identifier, "a", 2⟩, ⟨.symbol .equal, "=", 2⟩],
      ⟨.symbol .semicolon, ";", 2⟩, by decide, by decide, rfl⟩,
    ⟨some ⟨.keyword .printWord, "print", 3⟩, [⟨.identifier, "a", 3⟩],
      ⟨.symbol .semicolon, ";", 3⟩, by decide, by decide, rfl⟩]

example : (Program.ofTokens false (threeSentences.flatMap Sentence.tokens)).errors =
    [.grammatical .invalidAssignmentTarget ⟨.symbol .equal, "=", 1⟩,
      .grammatical .noExpression ⟨.symbol .semicolon, ";", 2⟩] := by
  decide +kernel

end Lox
