/-
# Reading stays inside the input

Whatever is read, and even if it is stopped, the tokens that are left are the last
ones of those that were there (`Reader.StaysIn`).  The reading of a program moves
along its tokens in one direction only; it never leaves the part in front of the
first end mark, and it goes on until it has come to that mark.

A declaration takes its first token in any case.  If it was read, it has taken at
least one; if it was stopped, the token at which it was stopped is skipped, unless
none is left.  This is also so inside a block, where the reading goes on in the
block that was being read.

The proofs follow the functions that read, of whatever tokens, and thus also of
those that no text gives.
-/

import Mathlib.Data.List.Chain
import Mathlib.Data.List.TakeWhile
import Lox.Proofs.Reading

namespace Lox

namespace Reader

variable {α β : Type} {n : Nat} {tokens : List Token}

/-- The tokens that a reading left are the last ones of some tokens. -/
def StaysIn (tokens : List Token) : Reader Id α n → Prop
  | .done _ _ rest _ => rest <:+ tokens
  | .stuck _ _ rest _ => rest <:+ tokens

variable {reading : Reader Id α n}

theorem staysIn_still (value : α) (tokens : List Token) : (still value tokens).StaysIn tokens :=
  List.suffix_rfl

theorem staysIn_stopped (fault : SyntaxFault) (tokens : List Token) :
    (stopped fault tokens : Reader Id α tokens.length).StaysIn tokens :=
  List.suffix_rfl

theorem StaysIn.trans {earlier : List Token} (stays : reading.StaysIn tokens)
    (inside : tokens <:+ earlier) : reading.StaysIn earlier := by
  cases reading with
  | done => exact List.IsSuffix.trans stays inside
  | stuck => exact List.IsSuffix.trans stays inside

/-- What stays behind a token stays where the token is. -/
theorem StaysIn.cons (stays : reading.StaysIn tokens) (first : Token) :
    reading.StaysIn (first :: tokens) :=
  stays.trans (List.suffix_cons first tokens)

theorem StaysIn.behind (stays : reading.StaysIn tokens) : reading.behind.StaysIn tokens := by
  cases reading <;> exact stays

theorem StaysIn.map (stays : reading.StaysIn tokens) (f : α → β) :
    (reading.map f).StaysIn tokens := by
  cases reading <;> exact stays

theorem StaysIn.noticing (stays : reading.StaysIn tokens) (earlier : List Notice) :
    (reading.noticing earlier).StaysIn tokens := by
  cases reading <;> exact stays

/-- One phrase behind another stays in the tokens if each stays in its own. -/
theorem StaysIn.andPerhaps
    {next : α → (rest : List Token) → rest.length < n → Reader Id β (rest.length + 1)}
    (stays : reading.StaysIn tokens)
    (further : ∀ value rest shorter, (next value rest shorter).StaysIn rest) :
    (reading.andPerhaps next).StaysIn tokens := by
  cases reading with
  | done value notices rest shorter =>
      have more := (further value rest shorter).trans stays
      cases found : next value rest shorter with
      | done =>
          rw [found] at more
          rwa [andPerhaps_of_done found]
      | stuck =>
          rw [found] at more
          rwa [andPerhaps_of_stuck found]
  | stuck => exact stays

theorem StaysIn.andThen {next : α → (rest : List Token) → rest.length < n → Reader Id β rest.length}
    (stays : reading.StaysIn tokens)
    (further : ∀ value rest shorter, (next value rest shorter).StaysIn rest) :
    (reading.andThen next).StaysIn tokens :=
  stays.andPerhaps fun value rest shorter => (further value rest shorter).behind

end Reader

theorem staysIn_expect (wanted : Token → Bool) (fault : SyntaxFault) (tokens : List Token) :
    (expect wanted fault tokens).StaysIn tokens := by
  cases tokens with
  | nil => exact List.suffix_rfl
  | cons token rest =>
      rw [expect]
      split
      · exact (Reader.staysIn_still token rest).cons token
      · exact Reader.staysIn_stopped fault (token :: rest)

/-! ## Expressions -/

mutual

theorem staysIn_expression (tokens : List Token) : (expression tokens).StaysIn tokens := by
  rw [expression]
  exact (staysIn_operation .disjunction tokens).andPerhaps fun target rest _ =>
    staysIn_assignment target rest
termination_by 18 * tokens.length + 15
decreasing_by
  · simp only [Precedence.height]
    omega
  · omega

theorem staysIn_assignment (target : Expr Unit) (tokens : List Token) :
    (assignment target tokens).StaysIn tokens := by
  match tokens with
  | [] =>
      rw [assignment]
      exact Reader.staysIn_still target []
  | first :: rest =>
      rw [assignment]
      split
      · refine (Reader.StaysIn.behind ?_).behind.cons first
        exact (staysIn_expression rest).andPerhaps fun value rest _ =>
          (Reader.staysIn_still _ rest).noticing _
      · exact Reader.staysIn_still target (first :: rest)
termination_by 18 * tokens.length
decreasing_by
  simp only [List.length_cons]
  omega

theorem staysIn_operation (level : Precedence) (tokens : List Token) :
    (operation level tokens).StaysIn tokens := by
  rw [operation]
  exact (staysIn_operand level tokens).andPerhaps fun left rest _ =>
    staysIn_operations level left rest
termination_by 18 * tokens.length + 2 * level.height + 2
decreasing_by all_goals omega

theorem staysIn_operand (level : Precedence) (tokens : List Token) :
    (operand level tokens).StaysIn tokens := by
  rw [operand]
  split
  · next next tighter =>
      have := Precedence.height_tighter? tighter
      exact staysIn_operation next tokens
  · have := level.height_pos
    exact staysIn_prefixed tokens
termination_by 18 * tokens.length + 2 * level.height + 1
decreasing_by all_goals omega

theorem staysIn_operations (level : Precedence) (left : Expr Unit) (tokens : List Token) :
    (operations level left tokens).StaysIn tokens := by
  match tokens with
  | [] =>
      rw [operations]
      exact Reader.staysIn_still left []
  | first :: rest =>
      rw [operations]
      split
      · have := level.height_le
        refine (Reader.StaysIn.behind ?_).behind.cons first
        exact (staysIn_operand level rest).andPerhaps fun right behind shorter =>
          staysIn_operations level _ behind
      · exact Reader.staysIn_still left (first :: rest)
termination_by 18 * tokens.length
decreasing_by
  · simp only [List.length_cons]
    omega
  · simp only [List.length_cons]
    omega

theorem staysIn_prefixed (tokens : List Token) : (prefixed tokens).StaysIn tokens := by
  match tokens with
  | [] =>
      rw [prefixed]
      exact Reader.staysIn_stopped _ []
  | first :: rest =>
      rw [prefixed]
      split
      · exact ((staysIn_prefixed rest).map _).behind.cons first
      · exact (staysIn_primary first rest).andPerhaps fun callee behind _ =>
          staysIn_suffixes callee behind
termination_by 18 * tokens.length + 2
decreasing_by all_goals (simp only [List.length_cons]; omega)

theorem staysIn_suffixes (callee : Expr Unit) (tokens : List Token) :
    (suffixes callee tokens).StaysIn tokens := by
  match tokens with
  | [] =>
      rw [suffixes]
      exact Reader.staysIn_still callee []
  | first :: rest =>
      rw [suffixes]
      split
      · refine (Reader.StaysIn.behind ?_).behind.cons first
        exact (staysIn_argumentList rest).andPerhaps fun given behind shorter =>
          staysIn_suffixes _ behind
      · split
        · refine (Reader.StaysIn.behind ?_).behind.cons first
          exact (staysIn_expect _ _ rest).andPerhaps fun name behind shorter =>
            staysIn_suffixes _ behind
        · exact Reader.staysIn_still callee (first :: rest)
termination_by 18 * tokens.length
decreasing_by all_goals (simp only [List.length_cons]; omega)

theorem staysIn_argumentList (tokens : List Token) : (argumentList tokens).StaysIn tokens := by
  match tokens with
  | [] =>
      rw [argumentList]
      exact Reader.staysIn_stopped _ []
  | first :: rest =>
      rw [argumentList]
      split
      · exact (Reader.staysIn_still _ rest).cons first
      · exact (staysIn_arguments 0 (first :: rest)).andThen fun arguments behind _ =>
          (staysIn_expect _ _ behind).map _
termination_by 18 * tokens.length + 17
decreasing_by omega

theorem staysIn_arguments (count : Nat) (tokens : List Token) :
    (arguments count tokens).StaysIn tokens := by
  rw [arguments]
  exact ((staysIn_expression tokens).noticing _).andPerhaps fun first rest _ =>
    (staysIn_furtherArguments (count + 1) rest).map _
termination_by 18 * tokens.length + 16
decreasing_by all_goals omega

theorem staysIn_furtherArguments (count : Nat) (tokens : List Token) :
    (furtherArguments count tokens).StaysIn tokens := by
  match tokens with
  | [] =>
      rw [furtherArguments]
      exact Reader.staysIn_still [] []
  | first :: rest =>
      rw [furtherArguments]
      split
      · exact (staysIn_arguments count rest).behind.behind.cons first
      · exact Reader.staysIn_still [] (first :: rest)
termination_by 18 * tokens.length
decreasing_by
  simp only [List.length_cons]
  omega

theorem staysIn_primary (first : Token) (tokens : List Token) :
    (primary first tokens).StaysIn (first :: tokens) := by
  rw [primary]
  split
  · exact (Reader.staysIn_still _ tokens).cons first
  · split
    · refine (Reader.StaysIn.behind ?_).cons first
      exact (staysIn_expression tokens).andThen fun inner rest _ =>
        (staysIn_expect _ _ rest).map _
    · exact Reader.staysIn_stopped _ (first :: tokens)
termination_by 18 * tokens.length + 16
decreasing_by omega

end

/-! ## Statements -/

theorem skipAfter_suffix (previous : Token) (tokens : List Token) :
    skipAfter previous tokens <:+ tokens := by
  induction tokens generalizing previous with
  | nil => exact List.suffix_rfl
  | cons first rest ih =>
      rw [skipAfter]
      split
      · exact List.suffix_rfl
      · exact (ih first).trans (List.suffix_cons first rest)

theorem resume_suffix (tokens : List Token) : resume tokens <:+ tokens := by
  cases tokens with
  | nil => exact List.suffix_rfl
  | cons first rest => exact (skipAfter_suffix first rest).trans (List.suffix_cons first rest)

namespace Declarer

variable {n : Nat} {tokens : List Token}

/-- What was read or skipped behind a first token leaves the last ones of the tokens
that are there, and takes the first one in any case. -/
theorem rest_ofReader_suffix (first : Token)
    {reading : Reader Id (Stmt Unit) (tokens.length + 1)}
    (stays : reading.StaysIn (first :: tokens)) :
    (ofReader reading).rest <:+ tokens := by
  have inside : (ofReader reading).rest <:+ first :: tokens := by
    cases reading with
    | done => exact stays
    | stuck _ _ rest => exact (resume_suffix rest).trans stays
  obtain whole | behind := List.suffix_cons_iff.1 inside
  · have shorter := (ofReader reading).shorter
    rw [whole, List.length_cons] at shorter
    exact absurd shorter (Nat.lt_irrefl _)
  · exact behind

theorem staysIn_andThen {declared : Declarer Id Unit n}
    {next : (rest : List Token) → rest.length < n → Reader Id (List (Stmt Unit)) rest.length}
    (inside : declared.rest <:+ tokens)
    (further : ∀ rest shorter, (next rest shorter).StaysIn rest) :
    (declared.andThen next).StaysIn tokens := by
  have more := (further declared.rest declared.shorter).trans inside
  cases found : next declared.rest declared.shorter with
  | done =>
      rw [found] at more
      rwa [andThen_of_done found]
  | stuck =>
      rw [found] at more
      rwa [andThen_of_stuck found]

end Declarer

theorem staysIn_expressionUnless (symbol : Symbol) (tokens : List Token) :
    (expressionUnless symbol tokens).StaysIn tokens := by
  have whole := (staysIn_expression tokens).map some
  cases tokens with
  | nil => exact whole.behind
  | cons first rest =>
      rw [expressionUnless]
      split
      · exact Reader.staysIn_still none (first :: rest)
      · exact whole.behind

theorem staysIn_initialValue (tokens : List Token) : (initialValue tokens).StaysIn tokens := by
  cases tokens with
  | nil => exact List.suffix_rfl
  | cons first rest =>
      rw [initialValue]
      split
      · refine (Reader.StaysIn.behind ?_).cons first
        exact (staysIn_expression rest).andThen fun value behind _ =>
          (staysIn_expect _ _ behind).map _
      · exact (staysIn_expect _ _ (first :: rest)).map _

theorem staysIn_varDeclaration (tokens : List Token) : (varDeclaration tokens).StaysIn tokens :=
  (staysIn_expect _ _ tokens).andThen fun _ rest _ => (staysIn_initialValue rest).map _

theorem staysIn_printStatement (tokens : List Token) : (printStatement tokens).StaysIn tokens :=
  (staysIn_expression tokens).andThen fun _ rest _ => (staysIn_expect _ _ rest).map _

theorem staysIn_returnStatement (keyword : Token) (tokens : List Token) :
    (returnStatement keyword tokens).StaysIn tokens :=
  (staysIn_expressionUnless .semicolon tokens).andThen fun _ rest _ =>
    (staysIn_expect _ _ rest).map _

theorem staysIn_expressionStatement (trailing : Bool) (tokens : List Token) :
    (expressionStatement trailing tokens).StaysIn tokens := by
  refine (staysIn_expression tokens).andPerhaps fun expr rest _ => ?_
  split
  · exact Reader.staysIn_still _ rest
  · exact ((staysIn_expect _ _ rest).map _).behind

theorem staysIn_initializerClause (trailing : Bool) (tokens : List Token) :
    (initializerClause trailing tokens).StaysIn tokens := by
  cases tokens with
  | nil => exact (staysIn_expressionStatement trailing []).map some
  | cons first rest =>
      rw [initializerClause]
      split
      · exact (Reader.staysIn_still none rest).cons first
      · split
        · exact ((staysIn_varDeclaration rest).map some).behind.cons first
        · exact (staysIn_expressionStatement trailing (first :: rest)).map some

theorem staysIn_loopClauses (trailing : Bool) (tokens : List Token) :
    (loopClauses trailing tokens).StaysIn tokens :=
  (staysIn_expect _ _ tokens).andThen fun _ rest _ =>
    (staysIn_initializerClause trailing rest).andPerhaps fun _ rest _ =>
      (staysIn_expressionUnless .semicolon rest).andThen fun _ rest _ =>
        (staysIn_expect _ _ rest).andPerhaps fun _ rest _ =>
          (staysIn_expressionUnless .rightParen rest).andThen fun _ rest _ =>
            (staysIn_expect _ _ rest).map _

theorem staysIn_condition (opening closing : SyntaxFault) (tokens : List Token) :
    (condition opening closing tokens).StaysIn tokens :=
  (staysIn_expect _ _ tokens).andThen fun _ rest _ =>
    (staysIn_expression rest).andThen fun _ rest _ => (staysIn_expect _ _ rest).map _

mutual

theorem staysIn_parameters (count : Nat) (tokens : List Token) :
    (parameters count tokens).StaysIn tokens := by
  rw [parameters]
  exact ((staysIn_expect _ _ tokens).noticing _).andPerhaps fun first rest _ =>
    (staysIn_furtherParameters (count + 1) rest).map _
termination_by tokens.length

theorem staysIn_furtherParameters (count : Nat) (tokens : List Token) :
    (furtherParameters count tokens).StaysIn tokens := by
  match tokens with
  | [] =>
      rw [furtherParameters]
      exact Reader.staysIn_still [] []
  | first :: rest =>
      rw [furtherParameters]
      split
      · exact (staysIn_parameters count rest).behind.behind.cons first
      · exact Reader.staysIn_still [] (first :: rest)
termination_by tokens.length

end

theorem staysIn_parameterList (tokens : List Token) : (parameterList tokens).StaysIn tokens := by
  cases tokens with
  | nil => exact List.suffix_rfl
  | cons first rest =>
      rw [parameterList]
      split
      · exact (Reader.staysIn_still [] rest).cons first
      · exact (staysIn_parameters 0 (first :: rest)).andThen fun names behind _ =>
          (staysIn_expect _ _ behind).map _

theorem staysIn_functionHead (kind : FunctionKind) (tokens : List Token) :
    (functionHead kind tokens).StaysIn tokens :=
  (staysIn_expect _ _ tokens).andThen fun _ rest _ =>
    (staysIn_expect _ _ rest).andThen fun _ rest _ =>
      (staysIn_parameterList rest).andThen fun _ rest _ => (staysIn_expect _ _ rest).map _

mutual

/-- A declaration takes its first token, and leaves the last ones of the others. -/
theorem rest_declaration_suffix (trailing : Bool) (first : Token) (tokens : List Token) :
    (declaration trailing first tokens).rest <:+ tokens := by
  rw [declaration]
  apply Declarer.rest_ofReader_suffix first
  split
  · exact (staysIn_classDeclaration trailing tokens).behind.cons first
  · exact ((staysIn_function trailing .function tokens).map _).behind.cons first
  · exact (staysIn_varDeclaration tokens).behind.cons first
  · exact staysIn_statement trailing (first :: tokens)
termination_by 3 * tokens.length + 4
decreasing_by
  · omega
  · omega
  · simp only [List.length_cons]
    omega

theorem staysIn_statement (trailing : Bool) (tokens : List Token) :
    (statement trailing tokens).StaysIn tokens := by
  match tokens with
  | [] =>
      rw [statement]
      exact staysIn_expressionStatement trailing []
  | first :: rest =>
      rw [statement]
      split
      · refine (Reader.StaysIn.behind ?_).cons first
        exact (staysIn_loopClauses trailing rest).andThen fun clauses behind _ =>
          (staysIn_statement trailing behind).map _
      · refine (Reader.StaysIn.behind ?_).cons first
        exact (staysIn_condition _ _ rest).andThen fun condition behind _ =>
          (staysIn_statement trailing behind).andPerhaps fun onTrue behind _ =>
            (staysIn_alternative trailing behind).map _
      · refine (Reader.StaysIn.behind ?_).cons first
        exact (staysIn_condition _ _ rest).andThen fun condition behind _ =>
          (staysIn_statement trailing behind).map _
      · exact (staysIn_returnStatement first rest).cons first
      · exact ((staysIn_block trailing rest).map _).behind.cons first
      · exact (staysIn_printStatement rest).behind.cons first
      · exact staysIn_expressionStatement trailing (first :: rest)
termination_by 3 * tokens.length
decreasing_by all_goals (simp only [List.length_cons]; omega)

theorem staysIn_alternative (trailing : Bool) (tokens : List Token) :
    (alternative trailing tokens).StaysIn tokens := by
  match tokens with
  | [] =>
      rw [alternative]
      exact Reader.staysIn_still none []
  | first :: rest =>
      rw [alternative]
      split
      · exact ((staysIn_statement trailing rest).map some).behind.behind.cons first
      · exact Reader.staysIn_still none (first :: rest)
termination_by 3 * tokens.length
decreasing_by
  simp only [List.length_cons]
  omega

theorem staysIn_block (trailing : Bool) (tokens : List Token) :
    (block trailing tokens).StaysIn tokens := by
  match tokens with
  | [] =>
      rw [block]
      exact Reader.staysIn_stopped _ []
  | first :: rest =>
      rw [block]
      split
      · exact (Reader.staysIn_still [] rest).cons first
      · have taken := rest_declaration_suffix trailing first rest
        exact Declarer.staysIn_andThen (taken.trans (List.suffix_cons first rest))
          fun behind _ => staysIn_block trailing behind
termination_by 3 * tokens.length + 2
decreasing_by all_goals (simp only [List.length_cons] at *; omega)

theorem staysIn_function (trailing : Bool) (kind : FunctionKind) (tokens : List Token) :
    (function trailing kind tokens).StaysIn tokens := by
  rw [function]
  exact (staysIn_functionHead kind tokens).andThen fun head rest _ =>
    (staysIn_block trailing rest).map _
termination_by 3 * tokens.length
decreasing_by omega

theorem staysIn_methods (trailing : Bool) (tokens : List Token) :
    (methods trailing tokens).StaysIn tokens := by
  match tokens with
  | [] =>
      rw [methods]
      exact Reader.staysIn_still [] []
  | first :: rest =>
      rw [methods]
      split
      · exact Reader.staysIn_still [] (first :: rest)
      · apply Reader.StaysIn.behind
        exact (staysIn_function trailing .method (first :: rest)).andPerhaps
          fun method behind _ => (staysIn_methods trailing behind).map _
termination_by 3 * tokens.length + 1
decreasing_by
  · omega
  · simp only [List.length_cons] at *
    omega

theorem staysIn_classDeclaration (trailing : Bool) (tokens : List Token) :
    (classDeclaration trailing tokens).StaysIn tokens := by
  rw [classDeclaration]
  exact (staysIn_expect _ _ tokens).andThen fun name rest _ =>
    (staysIn_expect _ _ rest).andPerhaps fun _ rest _ =>
      (staysIn_methods trailing rest).andThen fun methods rest _ =>
        (staysIn_expect _ _ rest).map _
termination_by 3 * tokens.length
decreasing_by omega

end

/-! ## Programs -/

/-- The tokens that are left each time the reading of a program has come to a
declaration, and at last none. -/
def remainders (trailing : Bool) : List Token → List (List Token)
  | [] => [[]]
  | first :: rest => (first :: rest) :: remainders trailing (declaration trailing first rest).rest
termination_by tokens => tokens.length
decreasing_by exact (declaration trailing first rest).shorter

/-- The statement and the notices that come of what is left: of none, nothing, and of
others, those of the declaration with which they start. -/
def readFrom (trailing : Bool) : List Token → List (Stmt Unit) × List Notice
  | [] => ([], [])
  | first :: rest =>
    ((declaration trailing first rest).statement.toList, (declaration trailing first rest).notices)

/-- The tokens with a mark behind them, unless the last one is a mark already.  It
stands on the line of the last one. -/
def marked (tokens : List Token) : List Token :=
  if tokens.getLast?.any Token.isEnd then tokens
  else tokens ++ [.atEnd ((tokens.getLast?.map Token.line).getD 1)]

/-- Among marked tokens, `rest` is what is left in front of the first mark. -/
def InFront (tokens rest : List Token) : Prop :=
  ∃ passed mark beyond, marked tokens = passed ++ (rest ++ mark :: beyond) ∧
    mark.isEnd = true ∧ ∀ token ∈ passed ++ rest, token.isEnd = false

/-- A reading of a program comes to one declaration after the other.  It starts with
all tokens in front of the first mark and ends at that mark; in between it goes on
where a declaration left it, having taken at least one token. -/
structure Passes (trailing : Bool) (tokens : List Token) (stops : List (List Token)) : Prop where
  starts : stops.head? = some (beforeEnd tokens)
  ends : stops.getLast? = some []
  steps : stops.IsChain fun earlier later => ∃ first rest, earlier = first :: rest ∧
    later = (declaration trailing first rest).rest ∧ later <:+ rest
  inside : ∀ rest ∈ stops, InFront tokens rest
  few : stops.length ≤ (beforeEnd tokens).length + 1

theorem head?_remainders (trailing : Bool) (tokens : List Token) :
    (remainders trailing tokens).head? = some tokens := by
  cases tokens with
  | nil => rw [remainders]; rfl
  | cons first rest => rw [remainders]; rfl

/-- What is read is what the declarations read, each of them where it starts. -/
theorem declarations_eq_flatMap (trailing : Bool) (tokens : List Token) :
    declarations trailing tokens =
      ((remainders trailing tokens).flatMap fun rest => (readFrom trailing rest).1,
        (remainders trailing tokens).flatMap fun rest => (readFrom trailing rest).2) := by
  match tokens with
  | [] =>
      rw [declarations_nil, remainders]
      rfl
  | first :: rest =>
      have shorter := (declaration trailing first rest).shorter
      rw [declarations_cons, remainders,
        declarations_eq_flatMap trailing (declaration trailing first rest).rest]
      rfl
termination_by tokens.length

theorem getLast?_remainders (trailing : Bool) (tokens : List Token) :
    (remainders trailing tokens).getLast? = some [] := by
  match tokens with
  | [] =>
      rw [remainders]
      rfl
  | first :: rest =>
      have shorter := (declaration trailing first rest).shorter
      rw [remainders, List.getLast?_cons,
        getLast?_remainders trailing (declaration trailing first rest).rest]
      rfl
termination_by tokens.length

theorem isChain_remainders (trailing : Bool) (tokens : List Token) :
    (remainders trailing tokens).IsChain fun earlier later => ∃ first rest,
      earlier = first :: rest ∧ later = (declaration trailing first rest).rest ∧
        later <:+ rest := by
  match tokens with
  | [] =>
      rw [remainders]
      exact .singleton _
  | first :: rest =>
      have shorter := (declaration trailing first rest).shorter
      rw [remainders]
      refine List.isChain_cons.2 ⟨?_, isChain_remainders trailing _⟩
      intro later isNext
      rw [head?_remainders] at isNext
      cases isNext
      exact ⟨first, rest, rfl, rfl, rest_declaration_suffix trailing first rest⟩
termination_by tokens.length

theorem suffix_of_mem_remainders {trailing : Bool} {tokens rest : List Token}
    (member : rest ∈ remainders trailing tokens) : rest <:+ tokens := by
  match tokens with
  | [] =>
      rw [remainders, List.mem_singleton] at member
      exact member ▸ List.suffix_rfl
  | first :: others =>
      have shorter := (declaration trailing first others).shorter
      rw [remainders] at member
      obtain rfl | later := List.mem_cons.1 member
      · exact List.suffix_rfl
      · have taken := rest_declaration_suffix trailing first others
        exact ((suffix_of_mem_remainders later).trans taken).trans (List.suffix_cons first others)
termination_by tokens.length

theorem length_remainders_le (trailing : Bool) (tokens : List Token) :
    (remainders trailing tokens).length ≤ tokens.length + 1 := by
  match tokens with
  | [] =>
      rw [remainders]
      exact Nat.le_refl _
  | first :: rest =>
      have shorter := (declaration trailing first rest).shorter
      have others := length_remainders_le trailing (declaration trailing first rest).rest
      rw [remainders, List.length_cons]
      simp only [List.length_cons] at shorter ⊢
      omega
termination_by tokens.length

/-! ## The first mark -/

theorem isEnd_of_mem_beforeEnd {tokens : List Token} {token : Token}
    (member : token ∈ beforeEnd tokens) : token.isEnd = false := by
  simpa using List.mem_takeWhile_imp member

theorem beforeEnd_mark (before : List Token) {mark : Token} (isMark : mark.isEnd = true)
    (behind : List Token) : beforeEnd (before ++ mark :: behind) = beforeEnd before := by
  induction before with
  | nil => exact List.takeWhile_cons_of_neg (by simp [isMark])
  | cons token before ih =>
      unfold beforeEnd at ih ⊢
      simp only [List.cons_append, List.takeWhile_cons, ih]

theorem find?_mark (before : List Token) {mark : Token} (isMark : mark.isEnd = true)
    (behind : List Token) :
    (before ++ mark :: behind).find? Token.isEnd = some ((before.find? Token.isEnd).getD mark) := by
  rw [List.find?_append, List.find?_cons_of_pos isMark]
  cases before.find? Token.isEnd <;> rfl

/-- What stands behind a mark makes no difference. -/
theorem ofTokens_mark (trailing : Bool) (before : List Token) {mark : Token}
    (isMark : mark.isEnd = true) (behind : List Token) :
    Program.ofTokens trailing (before ++ mark :: behind) =
      Program.ofTokens trailing (before ++ [mark]) := by
  have line (more : List Token) : endLine (before ++ mark :: more) =
      ((before.find? Token.isEnd).getD mark).line := by
    rw [endLine, find?_mark before isMark more]
  rw [Program.ofTokens_eq, Program.ofTokens_eq, beforeEnd_mark before isMark, beforeEnd_mark before isMark,
    line, line]

/-- A mark on the line of the last token, or on the first line if there is none,
makes no difference at the end. -/
theorem ofTokens_append_mark (trailing : Bool) {tokens : List Token} {mark : Token}
    (isMark : mark.isEnd = true) (line : mark.line = (tokens.getLast?.map Token.line).getD 1) :
    Program.ofTokens trailing (tokens ++ [mark]) = Program.ofTokens trailing tokens := by
  have same : endLine (tokens ++ [mark]) = endLine tokens := by
    rw [endLine, find?_mark tokens isMark [], endLine]
    cases tokens.find? Token.isEnd with
    | none => exact line
    | some earlier => rfl
  rw [Program.ofTokens_eq, Program.ofTokens_eq, beforeEnd_mark tokens isMark, same]

/-- Tokens among which there is a mark are those in front of the first one, that one
and others. -/
theorem exists_mark {tokens : List Token} (mark : Token) (member : mark ∈ tokens)
    (isMark : mark.isEnd = true) :
    ∃ first beyond, tokens = beforeEnd tokens ++ first :: beyond ∧ first.isEnd = true := by
  induction tokens with
  | nil => cases member
  | cons token tokens ih =>
      cases here : token.isEnd with
      | true =>
          refine ⟨token, tokens, ?_, here⟩
          rw [beforeEnd, List.takeWhile_cons_of_neg (by simp [here])]
          rfl
      | false =>
          have behind : mark ∈ tokens := by
            obtain rfl | behind := List.mem_cons.1 member
            · rw [here] at isMark
              cases isMark
            · exact behind
          obtain ⟨first, beyond, same, isFirst⟩ := ih behind
          refine ⟨first, beyond, ?_, isFirst⟩
          rw [beforeEnd, List.takeWhile_cons_of_pos (by simp [here]), List.cons_append]
          exact congrArg (token :: ·) same

/-- A mark at the end changes nothing in front of the first one. -/
theorem beforeEnd_marked (tokens : List Token) : beforeEnd (marked tokens) = beforeEnd tokens := by
  unfold marked
  split
  · rfl
  · exact beforeEnd_mark tokens rfl []

/-- Behind the tokens that are read stands a mark. -/
theorem marked_eq (tokens : List Token) :
    ∃ mark beyond, marked tokens = beforeEnd tokens ++ mark :: beyond ∧ mark.isEnd = true := by
  have mark : ∃ mark ∈ marked tokens, mark.isEnd = true := by
    unfold marked
    split
    · next isMarked =>
        cases last : tokens.getLast? with
        | none =>
            rw [last] at isMarked
            cases isMarked
        | some mark =>
            rw [last] at isMarked
            exact ⟨mark, List.mem_of_getLast? last, isMarked⟩
    · exact ⟨_, List.mem_append_right _ (List.mem_singleton.2 rfl), rfl⟩
  obtain ⟨mark, member, isMark⟩ := mark
  rw [← beforeEnd_marked]
  exact exists_mark mark member isMark

theorem inFront_of_suffix {tokens rest : List Token} (inside : rest <:+ beforeEnd tokens) :
    InFront tokens rest := by
  obtain ⟨passed, same⟩ := inside
  obtain ⟨mark, beyond, whole, isMark⟩ := marked_eq tokens
  refine ⟨passed, mark, beyond, ?_, isMark, fun token member => ?_⟩
  · rw [whole, ← same, List.append_assoc]
  · rw [same] at member
    exact isEnd_of_mem_beforeEnd member

theorem passes_remainders (trailing : Bool) (tokens : List Token) :
    Passes trailing tokens (remainders trailing (beforeEnd tokens)) where
  starts := head?_remainders trailing _
  ends := getLast?_remainders trailing _
  steps := isChain_remainders trailing _
  inside _ member := inFront_of_suffix (suffix_of_mem_remainders member)
  few := length_remainders_le trailing _

/-- The tokens that end with a mark are read as they are without it. -/
theorem ofTokens_marked (trailing : Bool) (tokens : List Token) :
    Program.ofTokens trailing (marked tokens) = Program.ofTokens trailing tokens := by
  unfold marked
  split
  · rfl
  · exact ofTokens_append_mark trailing rfl rfl

/-- Every reading of a phrase leaves the last ones of its tokens, also one that was
stopped; and a declaration, read or not, takes the first of its tokens.  The reading
of a program thus passes its tokens one declaration after the other, in at most as
many steps as there are tokens in front of the first mark; it never leaves these, and
it ends at the mark.  What it gives is what the declarations give.

What stands behind a mark makes no difference, nor does a mark at the end, if it is on
the line of the last token. -/
theorem reading_inside (trailing : Bool) :
    (∀ first rest, (declaration trailing first rest).rest <:+ rest) ∧
    (∀ tokens,
      (statement trailing tokens).StaysIn tokens ∧ (block trailing tokens).StaysIn tokens ∧
      (∀ kind, (function trailing kind tokens).StaysIn tokens) ∧
      (methods trailing tokens).StaysIn tokens ∧
      (classDeclaration trailing tokens).StaysIn tokens ∧
      (parameterList tokens).StaysIn tokens ∧ (loopClauses trailing tokens).StaysIn tokens ∧
      (expression tokens).StaysIn tokens ∧ (argumentList tokens).StaysIn tokens) ∧
    (∀ tokens, ∃ stops, Passes trailing tokens stops ∧
      (Program.ofTokens trailing tokens).statements =
        stops.flatMap (fun rest => (readFrom trailing rest).1) ∧
      (Program.ofTokens trailing tokens).errors =
        (stops.flatMap fun rest => (readFrom trailing rest).2).map
          (Notice.error (endLine tokens))) ∧
    (∀ tokens, Program.ofTokens trailing (marked tokens) = Program.ofTokens trailing tokens) ∧
    (∀ before mark behind, mark.isEnd = true →
      Program.ofTokens trailing (before ++ mark :: behind) =
        Program.ofTokens trailing (before ++ [mark])) ∧
    ∀ before last mark, mark.isEnd = true → mark.line = last.line →
      Program.ofTokens trailing (before ++ [last] ++ [mark]) =
        Program.ofTokens trailing (before ++ [last]) := by
  refine ⟨rest_declaration_suffix trailing, fun tokens => ?_, fun tokens => ?_,
    ofTokens_marked trailing, ?_, ?_⟩
  · exact ⟨staysIn_statement trailing tokens, staysIn_block trailing tokens,
      fun kind => staysIn_function trailing kind tokens, staysIn_methods trailing tokens,
      staysIn_classDeclaration trailing tokens, staysIn_parameterList tokens,
      staysIn_loopClauses trailing tokens, staysIn_expression tokens, staysIn_argumentList tokens⟩
  · refine ⟨_, passes_remainders trailing tokens, ?_, ?_⟩
    · rw [Program.ofTokens_eq, declarations_eq_flatMap]
    · rw [Program.ofTokens_eq, declarations_eq_flatMap]
  · exact fun before mark behind isMark => ofTokens_mark trailing before isMark behind
  · intro before last mark isMark line
    apply ofTokens_append_mark trailing isMark
    rw [List.getLast?_concat]
    exact line

/-- The tokens of a block of which the first declaration has no name. -/
def namelessInBlock : List Token :=
  [⟨.symbol .leftBrace, "\x7b", 1⟩, ⟨.keyword .varWord, "var", 1⟩, ⟨.symbol .semicolon, ";", 1⟩,
    ⟨.keyword .printWord, "print", 2⟩, ⟨.identifier, "a", 2⟩, ⟨.symbol .semicolon, ";", 2⟩,
    ⟨.symbol .rightBrace, "\x7d", 3⟩]

/-- The block is read in one step, with the statement behind the fault in it, and a
second block behind a mark is not looked at. -/
theorem namelessInBlock_reading_inside :
    remainders false namelessInBlock = [namelessInBlock, []] ∧
    (Program.ofTokens false namelessInBlock).statements.length = 1 ∧
    (Program.ofTokens false namelessInBlock).errors =
      [.grammatical .noVariableName ⟨.symbol .semicolon, ";", 1⟩] ∧
    Program.ofTokens false (namelessInBlock ++ .atEnd 3 :: namelessInBlock) =
      Program.ofTokens false (namelessInBlock ++ [.atEnd 3]) ∧
    Program.ofTokens false (namelessInBlock ++ [.atEnd 3]) =
      Program.ofTokens false namelessInBlock := by
  obtain ⟨-, -, -, -, ignored, appended⟩ := reading_inside false
  exact ⟨by decide +kernel, by decide +kernel, by decide +kernel,
    ignored namelessInBlock (.atEnd 3) namelessInBlock rfl,
    appended namelessInBlock.dropLast ⟨.symbol .rightBrace, "\x7d", 3⟩ (.atEnd 3) rfl rfl⟩

end Lox
