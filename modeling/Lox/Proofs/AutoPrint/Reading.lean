/-
# An expression with a semicolon behind it

An expression that is read to the end of the input may leave off the semicolon of its
statement.  This module shows that the semicolon makes no difference to the
expression: what is read of tokens, with whatever faults were noticed on the way and
whatever numbers were drawn, is read of them alike if a semicolon and anything else
stand behind (`Reader.Continues`).

Nothing is said of a reading that is stopped.  The proofs follow the functions that
read; where the tokens are used up, the semicolon is the first token that is left, and
with it no phrase goes on.
-/

import Lox.Proofs.Numbering.Readers
import Lox.Proofs.Recovery.Halting

namespace Lox

variable {α β : Type} {n k : Nat}

namespace Reader

/-- With numbers from the next one on, a reader reads a phrase, notices these faults and
leaves these tokens; the last number is the one after those that it draws. -/
def Reads (reader : Reader (StateM Reference) α n) (next : Reference) (value : α)
    (notices : List Notice) (rest : List Token) (last : Reference) : Prop :=
  ∃ shorter, StateT.run (m := Id) reader next = (.done value notices rest shorter, last)

section Reads

variable {reader : Reader (StateM Reference) α n} {next last : Reference} {value : α}
  {notices : List Notice} {rest : List Token}

theorem Reads.length_lt (reads : reader.Reads next value notices rest last) : rest.length < n :=
  reads.choose

theorem reads_still {found : α} {tokens : List Token} :
    (still found tokens).Reads next value notices rest last ↔
      found = value ∧ notices = [] ∧ rest = tokens ∧ last = next := by
  constructor
  · rintro ⟨_, ⟨⟩⟩
    exact ⟨rfl, rfl, rfl, rfl⟩
  · rintro ⟨rfl, rfl, rfl, rfl⟩
    exact ⟨_, rfl⟩

theorem reads_expect {wanted : Token → Bool} {token : Token} (accepted : wanted token = true)
    (fault : SyntaxFault) (tokens : List Token) (next : Reference) :
    Reads (expect wanted fault (token :: tokens)) next token [] tokens next := by
  rw [expect, if_pos accepted]
  exact reads_still.2 ⟨rfl, rfl, rfl, rfl⟩

theorem not_reads_stopped (fault : SyntaxFault) (tokens : List Token) :
    ¬ (stopped fault tokens).Reads next value notices rest last := by
  rintro ⟨_, ⟨⟩⟩

/-- A reader whose reading is turned into another one. -/
theorem reads_mapped {g : Reading α n → Reading β k} {made : β} :
    Reads (g <$> (reader : StateM Reference _) : StateM Reference _) next made notices rest last ↔
      ∃ reading, StateT.run (m := Id) reader next = (reading, last) ∧
        ∃ shorter, g reading = .done made notices rest shorter := by
  constructor
  · rintro ⟨shorter, whole⟩
    obtain ⟨same, rfl⟩ := Prod.mk.inj whole
    exact ⟨_, rfl, shorter, same⟩
  · rintro ⟨reading, ran, shorter, same⟩
    refine ⟨shorter, ?_⟩
    show (g (StateT.run (m := Id) reader next).1, (StateT.run (m := Id) reader next).2) = _
    rw [ran, same]

theorem reads_behind : reader.behind.Reads next value notices rest last ↔
    reader.Reads next value notices rest last := by
  refine reads_mapped.trans ⟨?_, ?_⟩
  · rintro ⟨_ | _, ran, _, ⟨⟩⟩
    exact ⟨_, ran⟩
  · rintro ⟨_, ran⟩
    exact ⟨_, ran, _, rfl⟩

theorem reads_map {f : α → β} {made : β} : (reader.map f).Reads next made notices rest last ↔
    ∃ value, reader.Reads next value notices rest last ∧ f value = made := by
  refine reads_mapped.trans ⟨?_, ?_⟩
  · rintro ⟨_ | _, ran, _, ⟨⟩⟩
    exact ⟨_, ⟨_, ran⟩, rfl⟩
  · rintro ⟨_, ⟨_, ran⟩, rfl⟩
    exact ⟨_, ran, _, rfl⟩

theorem reads_noticing {earlier : List Notice} :
    (reader.noticing earlier).Reads next value notices rest last ↔
      ∃ more, reader.Reads next value more rest last ∧ earlier ++ more = notices := by
  refine reads_mapped.trans ⟨?_, ?_⟩
  · rintro ⟨_ | _, ran, _, ⟨⟩⟩
    exact ⟨_, ⟨_, ran⟩, rfl⟩
  · rintro ⟨_, ⟨_, ran⟩, rfl⟩
    exact ⟨_, ran, _, rfl⟩

section AndPerhaps

variable {further : α → (rest : List Token) → rest.length < n →
  Reader (StateM Reference) β (rest.length + 1)} {middle : Reference}

theorem run_andPerhaps_of_done {shorter : rest.length < n}
    (ran : StateT.run (m := Id) reader next = (.done value notices rest shorter, middle)) :
    StateT.run (m := Id) (reader.andPerhaps further) next =
      (fun run => (run.1.following notices shorter, run.2))
        (StateT.run (m := Id) (further value rest shorter) middle) := by
  unfold andPerhaps
  simp only [StateT.run, bind, StateT.bind] at ran ⊢
  rw [ran]
  rfl

theorem run_andPerhaps_of_stuck {fault : SyntaxFault} {bound : rest.length ≤ n}
    (ran : StateT.run (m := Id) reader next = (.stuck notices fault rest bound, middle)) :
    StateT.run (m := Id) (reader.andPerhaps further) next =
      (.stuck notices fault rest bound, middle) := by
  unfold andPerhaps
  simp only [StateT.run, bind, StateT.bind] at ran ⊢
  rw [ran]
  rfl

/-- A phrase behind another one is read if both are. -/
theorem reads_andPerhaps {made : β} :
    (reader.andPerhaps further).Reads next made notices rest last ↔
      ∃ value before left middle, ∃ shorter : left.length < n, ∃ behind,
        reader.Reads next value before left middle ∧
          (further value left shorter).Reads middle made behind rest last ∧
            before ++ behind = notices := by
  constructor
  · rintro ⟨shorter, whole⟩
    cases ran : StateT.run (m := Id) reader next with
    | mk reading middle =>
        cases reading with
        | stuck before fault left bound =>
            rw [run_andPerhaps_of_stuck ran] at whole
            cases whole
        | done value before left shorter' =>
            rw [run_andPerhaps_of_done ran] at whole
            cases ran' : StateT.run (m := Id) (further value left shorter') middle with
            | mk second last' =>
                rw [ran'] at whole
                cases second with
                | stuck => cases whole
                | done =>
                    cases whole
                    exact ⟨value, before, left, middle, shorter', _, ⟨_, ran⟩, ⟨_, ran'⟩, rfl⟩
  · rintro ⟨value, before, left, middle, shorter, behind, ⟨_, ran⟩, ⟨shorter', ran'⟩, rfl⟩
    refine ⟨Nat.lt_of_lt_of_le shorter' shorter, ?_⟩
    rw [run_andPerhaps_of_done ran, ran']
    rfl

end AndPerhaps

end Reads

/-- If the first reader reads a phrase, the second one reads the same phrase with more
tokens behind those that are left, and draws the same numbers. -/
def Continues (behind : List Token) (alone : Reader (StateM Reference) α n)
    (continued : Reader (StateM Reference) α k) : Prop :=
  ∀ next value notices rest last, alone.Reads next value notices rest last →
    continued.Reads next value notices (rest ++ behind) last

namespace Continues

variable {following : List Token} {alone : Reader (StateM Reference) α n}
  {continued : Reader (StateM Reference) α k}

protected theorem still (value : α) (tokens : List Token) :
    Continues following (.still value tokens) (.still value (tokens ++ following)) := by
  intro next found notices rest last reads
  obtain ⟨rfl, rfl, rfl, rfl⟩ := reads_still.1 reads
  exact reads_still.2 ⟨rfl, rfl, rfl, rfl⟩

protected theorem stopped (fault : SyntaxFault) (tokens : List Token) :
    Continues following (.stopped fault tokens) continued :=
  fun _ _ _ _ _ reads => (not_reads_stopped fault tokens reads).elim

/-- Of no tokens nothing is read that takes one. -/
theorem of_empty {alone : Reader (StateM Reference) α 0} : Continues following alone continued :=
  fun _ _ _ _ _ reads => (Nat.not_lt_zero _ reads.length_lt).elim

protected theorem behind (continues : Continues following alone continued) :
    Continues following alone.behind continued.behind :=
  fun _ _ _ _ _ reads => reads_behind.2 (continues _ _ _ _ _ (reads_behind.1 reads))

protected theorem map (continues : Continues following alone continued) (f : α → β) :
    Continues following (alone.map f) (continued.map f) := by
  intro next made notices rest last reads
  obtain ⟨value, read, rfl⟩ := reads_map.1 reads
  exact reads_map.2 ⟨value, continues _ _ _ _ _ read, rfl⟩

protected theorem noticing (continues : Continues following alone continued)
    (earlier : List Notice) :
    Continues following (alone.noticing earlier) (continued.noticing earlier) := by
  intro next value notices rest last reads
  obtain ⟨more, read, rfl⟩ := reads_noticing.1 reads
  exact reads_noticing.2 ⟨more, continues _ _ _ _ _ read, rfl⟩

/-- One phrase behind another one. -/
protected theorem andPerhaps (continues : Continues following alone continued)
    {further : α → (rest : List Token) → rest.length < n →
      Reader (StateM Reference) β (rest.length + 1)}
    {further' : α → (rest : List Token) → rest.length < k →
      Reader (StateM Reference) β (rest.length + 1)}
    (behind : ∀ value left shorter shorter', Continues following (further value left shorter)
      (further' value (left ++ following) shorter')) :
    Continues following (alone.andPerhaps further) (continued.andPerhaps further') := by
  intro next made notices rest last reads
  obtain ⟨value, before, left, middle, shorter, more, first, second, rfl⟩ :=
    reads_andPerhaps.1 reads
  have first' := continues _ _ _ _ _ first
  have second' := behind value left shorter first'.length_lt _ _ _ _ _ second
  exact reads_andPerhaps.2 ⟨_, _, _, _, _, _, first', second', rfl⟩

protected theorem andThen (continues : Continues following alone continued)
    {further : α → (rest : List Token) → rest.length < n →
      Reader (StateM Reference) β rest.length}
    {further' : α → (rest : List Token) → rest.length < k →
      Reader (StateM Reference) β rest.length}
    (behind : ∀ value left shorter shorter', Continues following (further value left shorter)
      (further' value (left ++ following) shorter')) :
    Continues following (alone.andThen further) (continued.andThen further') :=
  continues.andPerhaps fun value left shorter shorter' =>
    (behind value left shorter shorter').behind

protected theorem acting {action : StateM Reference β} {further : β → Reader (StateM Reference) α n}
    {further' : β → Reader (StateM Reference) α k}
    (behind : ∀ made, Continues following (further made) (further' made)) :
    Continues following (.acting action further) (.acting action further') :=
  fun next _ _ _ _ reads => behind (action.run next).1 _ _ _ _ _ reads

/-- The token that is asked for is there. -/
protected theorem expect (wanted : Token → Bool) (fault : SyntaxFault) (tokens : List Token) :
    Continues following (Lox.expect wanted fault tokens)
      (Lox.expect wanted fault (tokens ++ following)) := by
  cases tokens with
  | nil => exact of_empty
  | cons first rest =>
      simp only [List.cons_append, Lox.expect]
      split
      · exact .still first rest
      · exact .stopped fault (first :: rest)

end Continues

end Reader

open Reader (Continues)

section

-- The linter does not see where a theorem of the recursion is used in another one.
set_option linter.unusedSectionVars false

variable {semicolon : Token} (isSemicolon : semicolon.kind = .symbol .semicolon)
  (behind : List Token)

include isSemicolon

mutual

/-- An expression is read alike with a semicolon behind it. -/
theorem continues_expression (tokens : List Token) :
    Continues (semicolon :: behind) (expression tokens)
      (expression (tokens ++ semicolon :: behind)) := by
  rw [expression, expression]
  exact (continues_operation .disjunction tokens).andPerhaps fun target left _ _ =>
    continues_assignment target left
termination_by 18 * tokens.length + 15
decreasing_by
  · simp only [Precedence.height]
    omega
  · omega

theorem continues_assignment (target : Expr Reference) (tokens : List Token) :
    Continues (semicolon :: behind) (assignment target tokens)
      (assignment target (tokens ++ semicolon :: behind)) := by
  match tokens with
  | [] =>
      have noEqual := isSymbol_eq_false_of_semicolon isSemicolon .equal (by decide)
      rw [List.nil_append, assignment, assignment, noEqual]
      exact .still target []
  | first :: rest =>
      simp only [List.cons_append]
      rw [assignment, assignment]
      split
      · apply Continues.behind
        apply Continues.behind
        exact (continues_expression rest).andPerhaps fun value left _ _ =>
          .acting fun made => (Continues.still made.1 left).noticing made.2
      · exact .still target (first :: rest)
termination_by 18 * tokens.length
decreasing_by
  simp only [List.length_cons]
  omega

theorem continues_operation (level : Precedence) (tokens : List Token) :
    Continues (semicolon :: behind) (operation level tokens)
      (operation level (tokens ++ semicolon :: behind)) := by
  rw [operation, operation]
  exact (continues_operand level tokens).andPerhaps fun left rest _ _ =>
    continues_operations level left rest
termination_by 18 * tokens.length + 2 * level.height + 2
decreasing_by all_goals omega

theorem continues_operand (level : Precedence) (tokens : List Token) :
    Continues (semicolon :: behind) (operand level tokens)
      (operand level (tokens ++ semicolon :: behind)) := by
  cases tighter : level.tighter? with
  | some next =>
      have := Precedence.height_tighter? tighter
      rw [operand_of_some tighter, operand_of_some tighter]
      exact continues_operation next tokens
  | none =>
      have := level.height_pos
      rw [operand_of_none tighter, operand_of_none tighter]
      exact continues_prefixed tokens
termination_by 18 * tokens.length + 2 * level.height + 1
decreasing_by all_goals omega

theorem continues_operations (level : Precedence) (left : Expr Reference) (tokens : List Token) :
    Continues (semicolon :: behind) (operations level left tokens)
      (operations level left (tokens ++ semicolon :: behind)) := by
  match tokens with
  | [] =>
      have noOperator : ¬ level.accepts semicolon = true :=
        fun accepted => Grammar.kind_of_accepts accepted isSemicolon (by decide)
      rw [List.nil_append, operations, operations, if_neg noOperator]
      exact .still left []
  | first :: rest =>
      have := level.height_le
      simp only [List.cons_append]
      rw [operations, operations]
      split
      · apply Continues.behind
        apply Continues.behind
        exact (continues_operand level rest).andPerhaps fun right further shorter _ =>
          continues_operations level (level.node left first right) further
      · exact .still left (first :: rest)
termination_by 18 * tokens.length
decreasing_by all_goals (simp only [List.length_cons]; omega)

theorem continues_prefixed (tokens : List Token) :
    Continues (semicolon :: behind) (prefixed tokens)
      (prefixed (tokens ++ semicolon :: behind)) := by
  match tokens with
  | [] => exact .of_empty
  | first :: rest =>
      simp only [List.cons_append]
      rw [prefixed, prefixed]
      split
      · exact ((continues_prefixed rest).map _).behind
      · exact (continues_primary first rest).andPerhaps fun callee left _ _ =>
          continues_suffixes callee left
termination_by 18 * tokens.length + 2
decreasing_by all_goals (simp only [List.length_cons] at *; omega)

theorem continues_suffixes (callee : Expr Reference) (tokens : List Token) :
    Continues (semicolon :: behind) (suffixes callee tokens)
      (suffixes callee (tokens ++ semicolon :: behind)) := by
  match tokens with
  | [] =>
      have noParen := isSymbol_eq_false_of_semicolon isSemicolon .leftParen (by decide)
      have noDot := isSymbol_eq_false_of_semicolon isSemicolon .dot (by decide)
      rw [List.nil_append, suffixes, suffixes, noParen, noDot]
      exact .still callee []
  | first :: rest =>
      simp only [List.cons_append]
      rw [suffixes, suffixes]
      split
      · apply Continues.behind
        apply Continues.behind
        exact (continues_argumentList rest).andPerhaps fun given left _ _ =>
          continues_suffixes (.call callee given.2 given.1) left
      · split
        · apply Continues.behind
          apply Continues.behind
          exact (Continues.expect _ _ rest).andPerhaps fun name left _ _ =>
            continues_suffixes (.get callee name) left
        · exact .still callee (first :: rest)
termination_by 18 * tokens.length
decreasing_by all_goals (simp only [List.length_cons]; omega)

theorem continues_argumentList (tokens : List Token) :
    Continues (semicolon :: behind) (argumentList tokens)
      (argumentList (tokens ++ semicolon :: behind)) := by
  match tokens with
  | [] => exact .of_empty
  | first :: rest =>
      simp only [List.cons_append]
      rw [argumentList, argumentList]
      split
      · exact .still ([], first) rest
      · exact (continues_arguments 0 (first :: rest)).andThen fun given left _ _ =>
          (Continues.expect _ _ left).map _
termination_by 18 * tokens.length + 17
decreasing_by omega

theorem continues_arguments (count : Nat) (tokens : List Token) :
    Continues (semicolon :: behind) (arguments count tokens)
      (arguments count (tokens ++ semicolon :: behind)) := by
  match tokens with
  | [] => exact .of_empty
  | first :: rest =>
      have starts : (first :: rest ++ semicolon :: behind).head? = (first :: rest).head? := rfl
      rw [arguments, arguments, starts]
      exact ((continues_expression (first :: rest)).noticing _).andPerhaps
        fun value left _ _ => (continues_furtherArguments (count + 1) left).map _
termination_by 18 * tokens.length + 16
decreasing_by all_goals omega

theorem continues_furtherArguments (count : Nat) (tokens : List Token) :
    Continues (semicolon :: behind) (furtherArguments count tokens)
      (furtherArguments count (tokens ++ semicolon :: behind)) := by
  match tokens with
  | [] =>
      have noComma := isSymbol_eq_false_of_semicolon isSemicolon .comma (by decide)
      rw [List.nil_append, furtherArguments, furtherArguments, noComma]
      exact .still [] []
  | first :: rest =>
      simp only [List.cons_append]
      rw [furtherArguments, furtherArguments]
      split
      · exact (continues_arguments count rest).behind.behind
      · exact .still [] (first :: rest)
termination_by 18 * tokens.length
decreasing_by
  simp only [List.length_cons]
  omega

theorem continues_primary (first : Token) (tokens : List Token) :
    Continues (semicolon :: behind) (primary first tokens)
      (primary first (tokens ++ semicolon :: behind)) := by
  rw [primary, primary]
  cases atom? (m := StateM Reference) first with
  | some atom => exact .acting fun expr => .still expr tokens
  | none =>
      dsimp only
      split
      · apply Continues.behind
        exact (continues_expression tokens).andThen fun inner left _ _ =>
          (Continues.expect _ _ left).map _
      · exact .stopped .noExpression (first :: tokens)
termination_by 18 * tokens.length + 16
decreasing_by omega

end

end

end Lox
