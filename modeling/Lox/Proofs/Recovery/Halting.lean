/-
# Expressions end in front of a semicolon

No expression takes a semicolon.  Whether an expression is read or not, its reading
halts at the next semicolon at the latest, and what came of it does not depend on what
stands behind: it is the same for every continuation (`HaltsAt`).

What is noticed on the way without stopping is an assignment to something that cannot
be assigned, or an argument too many.  What stops the reading is neither.

The proofs follow the functions that read.  Where the tokens in front are used up, the
first token that is left is the semicolon, with which nothing goes on.
-/

import Lox.Proofs.Grammar.Completeness.Expression
import Lox.Proofs.Outcome

namespace Lox

/-- The faults of an expression that do not stop its reading. -/
def SyntaxFault.IsPassing (fault : SyntaxFault) : Prop :=
  fault = .invalidAssignmentTarget ∨ fault = .tooManyArguments
deriving Decidable

/-- A fault that did not stop the reading of an expression was noticed at a token. -/
def Notice.Passes (notice : Notice) : Prop :=
  notice.fault.IsPassing ∧ notice.place.isSome

namespace Outcome

variable {α β : Type}

/-- The tokens that are left. -/
def rest : Outcome α → List Token
  | done _ _ rest => rest
  | stuck _ _ rest => rest

/-- The same outcome with more tokens behind those that are left. -/
def before (behind : List Token) : Outcome α → Outcome α
  | done value notices rest => done value notices (rest ++ behind)
  | stuck notices fault rest => stuck notices fault (rest ++ behind)

/-- Only passing faults were noticed without stopping, and none of them stopped. -/
def Mild : Outcome α → Prop
  | done _ notices _ => ∀ notice ∈ notices, notice.Passes
  | stuck notices fault _ => (∀ notice ∈ notices, notice.Passes) ∧ ¬ fault.IsPassing

theorem before_noticing (behind : List Token) (earlier : List Notice) (outcome : Outcome α) :
    (outcome.before behind).noticing earlier = (outcome.noticing earlier).before behind := by
  cases outcome <;> rfl

theorem before_map (behind : List Token) (f : α → β) (outcome : Outcome α) :
    (outcome.before behind).map f = (outcome.map f).before behind := by
  cases outcome <;> rfl

theorem rest_noticing (earlier : List Notice) (outcome : Outcome α) :
    (outcome.noticing earlier).rest = outcome.rest := by
  cases outcome <;> rfl

theorem rest_map (f : α → β) (outcome : Outcome α) : (outcome.map f).rest = outcome.rest := by
  cases outcome <;> rfl

theorem Mild.map {outcome : Outcome α} (mild : outcome.Mild) (f : α → β) :
    (outcome.map f).Mild := by
  cases outcome <;> exact mild

theorem Mild.noticing {outcome : Outcome α} (mild : outcome.Mild) {earlier : List Notice}
    (passing : ∀ notice ∈ earlier, notice.Passes) : (outcome.noticing earlier).Mild := by
  cases outcome with
  | done => exact List.forall_mem_append.2 ⟨passing, mild⟩
  | stuck => exact ⟨List.forall_mem_append.2 ⟨passing, mild.1⟩, mild.2⟩

end Outcome

section

variable {α β : Type} {semicolon : Token} {front : List Token}

/-- Tokens are read, and then a semicolon and others.  The reading halts at the semicolon
if it leaves some of the tokens in front, or none, and the semicolon; and what comes of
it is mild and does not depend on the tokens behind. -/
def HaltsAt (semicolon : Token) (front : List Token) (read : List Token → Outcome α) : Prop :=
  ∃ outcome : Outcome α, outcome.Mild ∧ outcome.rest <:+ front ∧
    ∀ behind, read (semicolon :: behind) = outcome.before (semicolon :: behind)

namespace HaltsAt

variable {read read' : List Token → Outcome α}

theorem congr (halts : HaltsAt semicolon front read)
    (same : ∀ behind, read' (semicolon :: behind) = read (semicolon :: behind)) :
    HaltsAt semicolon front read' := by
  obtain ⟨outcome, mild, inside, comes⟩ := halts
  exact ⟨outcome, mild, inside, fun behind => (same behind).trans (comes behind)⟩

theorem mono {left : List Token} (halts : HaltsAt semicolon left read) (inside : left <:+ front) :
    HaltsAt semicolon front read := by
  obtain ⟨outcome, mild, within, comes⟩ := halts
  exact ⟨outcome, mild, within.trans inside, comes⟩

theorem cons (halts : HaltsAt semicolon front read) (first : Token) :
    HaltsAt semicolon (first :: front) read :=
  halts.mono (List.suffix_cons first front)

theorem still (semicolon : Token) (value : α) (front : List Token) :
    HaltsAt semicolon front fun tail => .done value [] (front ++ tail) :=
  ⟨.done value [] front, List.forall_mem_nil _, List.suffix_rfl, fun _ => rfl⟩

theorem stopped (semicolon : Token) (fault : SyntaxFault) (serious : ¬ fault.IsPassing)
    (front : List Token) :
    HaltsAt semicolon front fun tail => (.stuck [] fault (front ++ tail) : Outcome α) :=
  ⟨.stuck [] fault front, ⟨List.forall_mem_nil _, serious⟩, List.suffix_rfl, fun _ => rfl⟩

theorem map (halts : HaltsAt semicolon front read) (f : α → β) :
    HaltsAt semicolon front fun tail => (read tail).map f := by
  obtain ⟨outcome, mild, inside, comes⟩ := halts
  refine ⟨outcome.map f, mild.map f, outcome.rest_map f ▸ inside, fun behind => ?_⟩
  simp only [comes, Outcome.before_map]

theorem noticing (halts : HaltsAt semicolon front read) {earlier : List Notice}
    (passing : ∀ notice ∈ earlier, notice.Passes) :
    HaltsAt semicolon front fun tail => (read tail).noticing earlier := by
  obtain ⟨outcome, mild, inside, comes⟩ := halts
  refine ⟨outcome.noticing earlier, mild.noticing passing, outcome.rest_noticing earlier ▸ inside,
    fun behind => ?_⟩
  simp only [comes, Outcome.before_noticing]

/-- One phrase behind another halts if each does, whatever the first one has left. -/
theorem bind (halts : HaltsAt semicolon front read) (next : α → List Token → Outcome β)
    (further : ∀ value left, left <:+ front →
      HaltsAt semicolon left fun tail => next value (left ++ tail)) :
    HaltsAt semicolon front fun tail => (read tail).bind next := by
  obtain ⟨outcome, mild, inside, comes⟩ := halts
  cases outcome with
  | stuck notices fault left =>
      refine ⟨.stuck notices fault left, mild, inside, fun behind => ?_⟩
      simp only [comes]
      rfl
  | done value notices left =>
      obtain ⟨outcome, mild', inside', comes'⟩ := further value left inside
      refine ⟨outcome.noticing notices, mild'.noticing mild,
        outcome.rest_noticing notices ▸ inside'.trans inside, fun behind => ?_⟩
      simp only [comes, ← Outcome.before_noticing, ← comes']
      rfl

end HaltsAt

end

section Operand

variable {m : Type → Type} [Monad m] {ρ : Type} [Labelling m ρ]

theorem operand_of_some {level next : Precedence} (tighter : level.tighter? = some next)
    (tokens : List Token) : operand (m := m) level tokens = operation next tokens := by
  rw [operand]
  split
  · next found =>
      rw [tighter] at found
      cases found
      rfl
  · next found =>
      rw [tighter] at found
      cases found

theorem operand_of_none {level : Precedence} (tightest : level.tighter? = none)
    (tokens : List Token) : operand (m := m) level tokens = prefixed tokens := by
  rw [operand]
  split
  · next found =>
      rw [tightest] at found
      cases found
  · rfl

end Operand

theorem outcome_prefixed_eq_bind {first : Token} (noPrefix : ¬ isPrefixOperator first = true)
    (rest : List Token) : (prefixed (first :: rest)).outcome =
      (primary first rest).outcome.bind fun callee rest => (suffixes callee rest).outcome := by
  rw [prefixed, if_neg noPrefix]
  exact Reader.outcome_andPerhaps (primary first rest) fun callee rest => suffixes callee rest

/-- No operand is read where none starts. -/
theorem outcome_prefixed_of_not_starts {first : Token} (starts : ¬ Grammar.StartsExpression first)
    (rest : List Token) :
    (prefixed (first :: rest)).outcome = .stuck [] .noExpression (first :: rest) := by
  have noPrefix : ¬ isPrefixOperator first = true := fun isPrefix => starts (.inl isPrefix)
  have noAtom : atom? first = none := by
    simpa using fun isAtom => starts (.inr (.inl isAtom))
  have noParen : ¬ first.isSymbol .leftParen = true :=
    fun isParen => starts (.inr (.inr (Token.isSymbol_iff.1 isParen)))
  rw [outcome_prefixed_eq_bind noPrefix, primary, noAtom]
  simp only [if_neg noParen]
  rfl

/-- If no operand is read, no operation is. -/
theorem outcome_operation_of_stuck {tokens : List Token} {fault : SyntaxFault}
    (stuck : (prefixed tokens).outcome = .stuck [] fault tokens) (level : Precedence) :
    (operation level tokens).outcome = .stuck [] fault tokens := by
  have operand : (operand level tokens).outcome = .stuck [] fault tokens := by
    cases tighter : level.tighter? with
    | some next =>
        rw [operand_of_some tighter]
        exact outcome_operation_of_stuck stuck next
    | none => rw [operand_of_none tighter, stuck]
  rw [operation, Reader.outcome_andPerhaps, operand]
  rfl
termination_by level.height
decreasing_by exact Precedence.height_tighter? tighter

theorem outcome_expression_of_stuck {tokens : List Token} {fault : SyntaxFault}
    (stuck : (prefixed tokens).outcome = .stuck [] fault tokens) :
    (expression tokens).outcome = .stuck [] fault tokens := by
  rw [expression, Reader.outcome_andPerhaps, outcome_operation_of_stuck stuck]
  rfl

theorem assigned_passes (target : Expr Unit) (equals : Token) (value : Expr Unit) :
    ∀ notice ∈ (assigned target equals value).2, notice.Passes := by
  unfold assigned
  split
  · exact List.forall_mem_nil _
  · exact List.forall_mem_nil _
  · exact List.forall_mem_singleton.2 ⟨.inl rfl, rfl⟩

/-- A token is asked for that is no semicolon. -/
theorem haltsAt_expect {semicolon : Token} {wanted : Token → Bool}
    (other : wanted semicolon = false) (fault : SyntaxFault) (serious : ¬ fault.IsPassing)
    (front : List Token) :
    HaltsAt semicolon front fun tail => (expect wanted fault (front ++ tail)).outcome := by
  cases front with
  | nil =>
      refine (HaltsAt.stopped semicolon fault serious []).congr fun behind => ?_
      rw [List.nil_append, outcome_expect_cons, other]
      rfl
  | cons first rest =>
      cases found : wanted first with
      | true =>
          refine ((HaltsAt.still semicolon first rest).cons first).congr fun behind => ?_
          rw [List.cons_append, outcome_expect_cons, if_pos found]
      | false =>
          refine (HaltsAt.stopped semicolon fault serious (first :: rest)).congr fun behind => ?_
          rw [List.cons_append, outcome_expect_cons, found]
          rfl

section

-- The linter does not see where a theorem of the recursion is used in another one.
set_option linter.unusedSectionVars false

variable {semicolon : Token} (isSemicolon : semicolon.kind = .symbol .semicolon)

include isSemicolon

theorem isSymbol_eq_false_of_semicolon (symbol : Symbol) (other : symbol ≠ .semicolon) :
    semicolon.isSymbol symbol = false := by
  simp [Token.isSymbol, isSemicolon, other.symm]

theorem haltsAt_rightParen (fault : SyntaxFault) (serious : ¬ fault.IsPassing)
    (front : List Token) :
    HaltsAt semicolon front fun tail =>
      (expect (·.isSymbol .rightParen) fault (front ++ tail)).outcome :=
  haltsAt_expect (isSymbol_eq_false_of_semicolon isSemicolon _ (by decide)) fault serious front

theorem not_startsExpression_of_semicolon : ¬ Grammar.StartsExpression semicolon := by
  simp [Grammar.StartsExpression, isPrefixOperator, atom?, Token.isSymbol, isSemicolon]

mutual

theorem haltsAt_expression (front : List Token) :
    HaltsAt semicolon front fun tail => (expression (front ++ tail)).outcome := by
  refine ((haltsAt_operation .disjunction front).bind
    (fun target rest => (assignment target rest).outcome) fun target left inside => ?_).congr
      fun behind => ?_
  · have := inside.length_le
    exact haltsAt_assignment target left
  · rw [expression, Reader.outcome_andPerhaps]
termination_by 18 * front.length + 15
decreasing_by
  · simp only [Precedence.height]
    omega
  · omega

theorem haltsAt_assignment (target : Expr Unit) (front : List Token) :
    HaltsAt semicolon front fun tail => (assignment target (front ++ tail)).outcome := by
  match front with
  | [] =>
      have noEqual := isSymbol_eq_false_of_semicolon isSemicolon .equal (by decide)
      refine (HaltsAt.still semicolon target []).congr fun behind => ?_
      rw [List.nil_append, assignment, noEqual]
      rfl
  | first :: rest =>
      cases isEqual : first.isSymbol .equal with
      | true =>
          refine (((haltsAt_expression rest).bind
            (fun value rest => (Outcome.done (assigned target first value).1 [] rest).noticing
              (assigned target first value).2) fun value left _ => ?_).cons first).congr
                fun behind => ?_
          · exact (HaltsAt.still semicolon _ left).noticing (assigned_passes target first value)
          · rw [List.cons_append, assignment, if_pos isEqual, Reader.outcome_behind,
              Reader.outcome_behind, Reader.outcome_andPerhaps]
            rfl
      | false =>
          refine (HaltsAt.still semicolon target (first :: rest)).congr fun behind => ?_
          rw [List.cons_append, assignment, isEqual]
          rfl
termination_by 18 * front.length
decreasing_by
  simp only [List.length_cons]
  omega

theorem haltsAt_operation (level : Precedence) (front : List Token) :
    HaltsAt semicolon front fun tail => (operation level (front ++ tail)).outcome := by
  refine ((haltsAt_operand level front).bind
    (fun left rest => (operations level left rest).outcome) fun left rest inside => ?_).congr
      fun behind => ?_
  · have := inside.length_le
    exact haltsAt_operations level left rest
  · rw [operation, Reader.outcome_andPerhaps]
termination_by 18 * front.length + 2 * level.height + 2
decreasing_by all_goals omega

theorem haltsAt_operand (level : Precedence) (front : List Token) :
    HaltsAt semicolon front fun tail => (operand level (front ++ tail)).outcome := by
  cases tighter : level.tighter? with
  | some next =>
      have := Precedence.height_tighter? tighter
      exact (haltsAt_operation next front).congr fun behind => by rw [operand_of_some tighter]
  | none =>
      have := level.height_pos
      exact (haltsAt_prefixed front).congr fun behind => by rw [operand_of_none tighter]
termination_by 18 * front.length + 2 * level.height + 1
decreasing_by all_goals omega

theorem haltsAt_operations (level : Precedence) (left : Expr Unit) (front : List Token) :
    HaltsAt semicolon front fun tail => (operations level left (front ++ tail)).outcome := by
  match front with
  | [] =>
      have noOperator : ¬ level.accepts semicolon = true :=
        fun accepted => Grammar.kind_of_accepts accepted isSemicolon (by decide)
      refine (HaltsAt.still semicolon left []).congr fun behind => ?_
      rw [List.nil_append, operations, if_neg noOperator]
      rfl
  | first :: rest =>
      cases accepted : level.accepts first with
      | true =>
          have := level.height_le
          refine (((haltsAt_operand level rest).bind
            (fun right rest => (operations level (level.node left first right) rest).outcome)
              fun right behind inside => ?_).cons first).congr fun behind => ?_
          · have := inside.length_le
            exact haltsAt_operations level (level.node left first right) behind
          · rw [List.cons_append, operations, if_pos accepted, Reader.outcome_behind,
              Reader.outcome_behind, Reader.outcome_andPerhaps]
      | false =>
          refine (HaltsAt.still semicolon left (first :: rest)).congr fun behind => ?_
          rw [List.cons_append, operations, accepted]
          rfl
termination_by 18 * front.length
decreasing_by
  · simp only [List.length_cons]
    omega
  · simp only [List.length_cons]
    omega

theorem haltsAt_prefixed (front : List Token) :
    HaltsAt semicolon front fun tail => (prefixed (front ++ tail)).outcome := by
  match front with
  | [] =>
      have starts := not_startsExpression_of_semicolon isSemicolon
      refine (HaltsAt.stopped semicolon .noExpression (by decide) []).congr fun behind => ?_
      rw [List.nil_append, outcome_prefixed_of_not_starts starts]
  | first :: rest =>
      cases isPrefix : isPrefixOperator first with
      | true =>
          refine (((haltsAt_prefixed rest).map (.unary first)).cons first).congr fun behind => ?_
          rw [List.cons_append, prefixed, if_pos isPrefix, Reader.outcome_behind,
            Reader.outcome_map]
      | false =>
          refine ((haltsAt_primary first rest).bind
            (fun callee rest => (suffixes callee rest).outcome) fun callee left inside => ?_).congr
              fun behind => ?_
          · have := inside.length_le
            exact haltsAt_suffixes callee left
          · rw [List.cons_append, outcome_prefixed_eq_bind (Bool.eq_false_iff.1 isPrefix)]
termination_by 18 * front.length + 2
decreasing_by all_goals (simp only [List.length_cons] at *; omega)

theorem haltsAt_suffixes (callee : Expr Unit) (front : List Token) :
    HaltsAt semicolon front fun tail => (suffixes callee (front ++ tail)).outcome := by
  match front with
  | [] =>
      have noParen := isSymbol_eq_false_of_semicolon isSemicolon .leftParen (by decide)
      have noDot := isSymbol_eq_false_of_semicolon isSemicolon .dot (by decide)
      refine (HaltsAt.still semicolon callee []).congr fun behind => ?_
      rw [List.nil_append, suffixes, noParen, noDot]
      rfl
  | first :: rest =>
      cases isParen : first.isSymbol .leftParen with
      | true =>
          refine (((haltsAt_argumentList rest).bind
            (fun given rest => (suffixes (.call callee given.2 given.1) rest).outcome)
              fun given left inside => ?_).cons first).congr fun behind => ?_
          · have := inside.length_le
            exact haltsAt_suffixes (.call callee given.2 given.1) left
          · rw [List.cons_append, suffixes, if_pos isParen, Reader.outcome_behind,
              Reader.outcome_behind, Reader.outcome_andPerhaps]
      | false =>
          cases isDot : first.isSymbol .dot with
          | true =>
              have noName : semicolon.isIdentifier = false := by
                simp [Token.isIdentifier, isSemicolon]
              refine (((haltsAt_expect noName .noPropertyName (by decide) rest).bind
                  (fun name rest => (suffixes (.get callee name) rest).outcome)
                    fun name left inside => ?_).cons first).congr fun behind => ?_
              · have := inside.length_le
                exact haltsAt_suffixes (.get callee name) left
              · rw [List.cons_append, suffixes, isParen, if_neg Bool.false_ne_true, if_pos isDot,
                  Reader.outcome_behind, Reader.outcome_behind, Reader.outcome_andPerhaps]
          | false =>
              refine (HaltsAt.still semicolon callee (first :: rest)).congr fun behind => ?_
              rw [List.cons_append, suffixes, isParen, isDot]
              rfl
termination_by 18 * front.length
decreasing_by all_goals (simp only [List.length_cons]; omega)

theorem haltsAt_argumentList (front : List Token) :
    HaltsAt semicolon front fun tail => (argumentList (front ++ tail)).outcome := by
  have some : HaltsAt semicolon front fun tail => (arguments 0 (front ++ tail)).outcome.bind
      fun arguments rest => (expect (·.isSymbol .rightParen) .argumentsNotClosed rest).outcome.map
        (arguments, ·) :=
    (haltsAt_arguments 0 front).bind _ fun arguments left _ =>
      (haltsAt_rightParen isSemicolon _ (by decide) left).map _
  cases front with
  | nil =>
      have noParen := isSymbol_eq_false_of_semicolon isSemicolon .rightParen (by decide)
      refine some.congr fun behind => ?_
      rw [List.nil_append, argumentList, noParen, if_neg Bool.false_ne_true,
        Reader.outcome_andThen]
      simp only [Reader.outcome_map]
  | cons first rest =>
      cases isParen : first.isSymbol .rightParen with
      | true =>
          refine ((HaltsAt.still semicolon ([], first) rest).cons first).congr fun behind => ?_
          rw [List.cons_append, argumentList, if_pos isParen]
          rfl
      | false =>
          refine some.congr fun behind => ?_
          rw [List.cons_append, argumentList, isParen, if_neg Bool.false_ne_true,
            Reader.outcome_andThen]
          simp only [Reader.outcome_map]
termination_by 18 * front.length + 17
decreasing_by omega

theorem haltsAt_arguments (count : Nat) (front : List Token) :
    HaltsAt semicolon front fun tail => (arguments count (front ++ tail)).outcome := by
  have starts (behind : List Token) :
      (front ++ semicolon :: behind).head? = some (front.head?.getD semicolon) := by
    cases front <;> rfl
  have passing : ∀ notice ∈ (if mostArguments ≤ count then
      [⟨.tooManyArguments, some (front.head?.getD semicolon)⟩] else [] : List Notice),
      notice.Passes := by
    split
    · exact List.forall_mem_singleton.2 ⟨.inr rfl, rfl⟩
    · exact List.forall_mem_nil _
  refine (((haltsAt_expression front).noticing passing).bind
    (fun first rest => (furtherArguments (count + 1) rest).outcome.map (first :: ·))
      fun first left inside => ?_).congr fun behind => ?_
  · have := inside.length_le
    exact (haltsAt_furtherArguments (count + 1) left).map _
  · rw [arguments, Reader.outcome_andPerhaps, Reader.outcome_noticing, starts]
    simp only [Reader.outcome_map]
termination_by 18 * front.length + 16
decreasing_by all_goals omega

theorem haltsAt_furtherArguments (count : Nat) (front : List Token) :
    HaltsAt semicolon front fun tail => (furtherArguments count (front ++ tail)).outcome := by
  match front with
  | [] =>
      have noComma := isSymbol_eq_false_of_semicolon isSemicolon .comma (by decide)
      refine (HaltsAt.still semicolon [] []).congr fun behind => ?_
      rw [List.nil_append, furtherArguments, noComma]
      rfl
  | first :: rest =>
      cases isComma : first.isSymbol .comma with
      | true =>
          refine ((haltsAt_arguments count rest).cons first).congr fun behind => ?_
          rw [List.cons_append, furtherArguments, if_pos isComma, Reader.outcome_behind,
            Reader.outcome_behind]
      | false =>
          refine (HaltsAt.still semicolon [] (first :: rest)).congr fun behind => ?_
          rw [List.cons_append, furtherArguments, isComma]
          rfl
termination_by 18 * front.length
decreasing_by
  simp only [List.length_cons]
  omega

theorem haltsAt_primary (first : Token) (front : List Token) :
    HaltsAt semicolon (first :: front) fun tail => (primary first (front ++ tail)).outcome := by
  cases atom : atom? first with
  | some expr =>
      refine ((HaltsAt.still semicolon expr front).cons first).congr fun behind => ?_
      rw [primary, atom]
      rfl
  | none =>
      cases isParen : first.isSymbol .leftParen with
      | true =>
          refine (((haltsAt_expression front).bind
            (fun inner rest => (expect (·.isSymbol .rightParen) .groupNotClosed rest).outcome.map
              fun _ => .grouping inner) fun inner left _ => ?_).cons first).congr fun behind => ?_
          · exact (haltsAt_rightParen isSemicolon _ (by decide) left).map _
          · rw [primary, atom]
            simp only [if_pos isParen]
            rw [Reader.outcome_behind, Reader.outcome_andThen]
            simp only [Reader.outcome_map]
      | false =>
          refine (HaltsAt.stopped semicolon .noExpression (by decide)
            (first :: front)).congr fun behind => ?_
          rw [primary, atom]
          simp only [isParen]
          rfl
termination_by 18 * front.length + 16
decreasing_by omega

end

end

end Lox
