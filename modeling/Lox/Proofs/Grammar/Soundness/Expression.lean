/-
# What is read as an expression is derived

A clean reading takes a row of tokens off the front that the grammar derives,
and its phrase is the tree of that row.  The proofs follow the functions that
read, one lemma for each of them, and end for the same reason.

The loops over operators and over calls are stated for a left operand that is
already there: what they take extends its row.
-/

import Mathlib.Tactic.ByContra
import Lox.Proofs.Grammar
import Lox.Proofs.Grammar.Clean

namespace Lox.Grammar

open Reader

/-- A level accepts exactly its operators. -/
theorem accepts_iff {level : Precedence} {token : Token} :
    level.accepts token = true ↔ ∃ terminal ∈ operators level, terminal.Matches token := by
  unfold Precedence.accepts
  cases level <;> simp only [operators, List.mem_cons, List.not_mem_nil, or_false,
    exists_eq_or_imp, exists_eq_left, Terminal.Matches]
  all_goals split <;> simp_all

theorem isPrefixOperator_iff {token : Token} :
    isPrefixOperator token = true ↔
      token.kind = .symbol .bang ∨ token.kind = .symbol .minus := by
  simp [isPrefixOperator, Token.isSymbol_iff]

/-- What one token reads as, it derives. -/
theorem primary_of_atom? {token : Token} {expr : Expr Unit} (found : atom? token = some expr) :
    Expression .primary [token] expr := by
  unfold atom? at found
  split at found <;> first | contradiction | injection found with same; subst same
  · next same => exact .falseWord same
  · next same => exact .trueWord same
  · next same => exact .nilWord same
  · next value same => exact .number same
  · next text same => exact .string same
  · next same => exact .thisWord same
  · next same => exact .reference same

/-- An operation is neither a variable nor a property. -/
theorem node_ne {level : Precedence} {left right : Expr Unit} {operator : Token} :
    (∀ name, level.node left operator right ≠ .variable () name) ∧
      ∀ object name, level.node left operator right ≠ .get object name := by
  cases level <;> simp [Precedence.node]

/-- Only a name alone has the tree of a variable. -/
theorem Expression.eq_of_variable {tier : Tier} {tokens : List Token} {name : Token}
    (derived : Expression tier tokens (.variable () name)) :
    tokens = [name] ∧ name.kind = .identifier := by
  generalize same : Expr.variable () name = expr at derived
  induction derived with
  | operation => exact absurd same.symm (node_ne.1 name)
  | reference isName =>
      cases same
      exact ⟨rfl, isName⟩
  | unassigned _ ih => exact ih same
  | operand _ ih => exact ih same
  | noPrefix _ ih => exact ih same
  | primary _ ih => exact ih same
  | _ => cases same

/-- Only a property behind its object has the tree of a property. -/
theorem Expression.eq_of_get {tier : Tier} {tokens : List Token} {object : Expr Unit}
    {name : Token} (derived : Expression tier tokens (.get object name)) :
    ∃ before dot, tokens = before ++ [dot, name] ∧ Expression .call before object ∧
      dot.kind = .symbol .dot ∧ name.kind = .identifier := by
  generalize same : Expr.get object name = expr at derived
  induction derived with
  | operation => exact absurd same.symm (node_ne.2 object name)
  | @property before _ dot _ owner isDot isName =>
      cases same
      exact ⟨before, dot, rfl, owner, isDot, isName⟩
  | unassigned _ ih => exact ih same
  | operand _ ih => exact ih same
  | noPrefix _ ih => exact ih same
  | primary _ ih => exact ih same
  | _ => cases same

/-- An assignment without a fault is one of the two that the grammar knows. -/
theorem Expression.assigned {before tokens : List Token} {target value expr : Expr Unit}
    {equals : Token} (left : Expression (.operation .disjunction) before target)
    (isEqual : equals.kind = .symbol .equal) (source : Expression .assignment tokens value)
    (quiet : Lox.assigned target equals value = (expr, [])) :
    Expression .assignment (before ++ equals :: tokens) expr := by
  unfold Lox.assigned at quiet
  split at quiet
  · next name =>
      obtain ⟨rfl, isName⟩ := left.eq_of_variable
      cases quiet
      exact .assignVariable isName isEqual source
  · next object name =>
      obtain ⟨front, dot, rfl, owner, isDot, isName⟩ := left.eq_of_get
      cases quiet
      simpa only [List.append_assoc, List.cons_append, List.nil_append] using
        Expression.assignProperty owner isDot isName isEqual source
  · cases quiet

/-- The arguments of a call, each with its row of tokens. -/
abbrev Rows := List (List Token × Expr Unit)

/-- Every row of a call's arguments is an expression. -/
def Rows.Expressions (rows : Rows) : Prop :=
  ∀ row ∈ rows, Expression .assignment row.1 row.2

/-- What is read behind a first argument: each further one follows a comma. -/
def Rows.Follow (rows : Rows) (tokens : List Token) : Prop :=
  rows.Expressions ∧
    ∀ first, Separated (first :: rows.map Prod.fst) (first ++ tokens)

mutual

theorem expression_of_clean {tokens : List Token} {expr : Expr Unit} {rest : List Token}
    (clean : (expression tokens).Clean expr rest) :
    ∃ used, tokens = used ++ rest ∧ Expression .assignment used expr := by
  rw [expression, clean_andPerhaps] at clean
  obtain ⟨target, middle, shorter, first, second⟩ := clean
  obtain ⟨before, same, whole⟩ := operation_of_clean first
  rcases assignment_of_clean second with
    ⟨rfl, rfl⟩ | ⟨equals, used, value, rfl, isEqual, source, quiet⟩
  · exact ⟨before, same, .unassigned whole⟩
  · refine ⟨before ++ equals :: used, ?_, whole.assigned isEqual source quiet⟩
    rw [same, List.append_assoc, List.cons_append]
termination_by 18 * tokens.length + 15
decreasing_by
  · simp only [Precedence.height]
    omega
  · omega

theorem assignment_of_clean {target : Expr Unit} {tokens : List Token} {expr : Expr Unit}
    {rest : List Token} (clean : (assignment target tokens).Clean expr rest) :
    (expr = target ∧ tokens = rest) ∨
      ∃ equals used value, tokens = equals :: (used ++ rest) ∧
        equals.kind = .symbol .equal ∧ Expression .assignment used value ∧
        Lox.assigned target equals value = (expr, []) := by
  match tokens, clean with
  | [], clean =>
      rw [assignment, clean_still] at clean
      exact .inl ⟨clean.1.symm, clean.2⟩
  | first :: tokens, clean =>
      rw [assignment] at clean
      split at clean
      · next isEqual =>
          rw [Token.isSymbol_iff] at isEqual
          rw [clean_behind, clean_behind, clean_andPerhaps] at clean
          obtain ⟨value, left, shorter, source, same⟩ := clean
          obtain ⟨used, rfl, derived⟩ := expression_of_clean source
          simp only [acting_eq, clean_noticing, clean_still] at same
          obtain ⟨quiet, rfl, rfl⟩ := same
          exact .inr ⟨first, used, value, rfl, isEqual, derived, Prod.ext rfl quiet⟩
      · rw [clean_still] at clean
        exact .inl ⟨clean.1.symm, clean.2⟩
termination_by 18 * tokens.length
decreasing_by
  simp only [List.length_cons]
  omega

theorem operation_of_clean {level : Precedence} {tokens : List Token} {expr : Expr Unit}
    {rest : List Token} (clean : (Lox.operation level tokens).Clean expr rest) :
    ∃ used, tokens = used ++ rest ∧ Expression (.operation level) used expr := by
  rw [operation, clean_andPerhaps] at clean
  obtain ⟨left, middle, shorter, first, second⟩ := clean
  obtain ⟨before, same, whole⟩ := operand_of_clean first
  obtain ⟨used, rfl, derived⟩ := operations_of_clean second (.operand whole)
  exact ⟨before ++ used, by rw [same, List.append_assoc], derived⟩
termination_by 18 * tokens.length + 2 * level.height + 2
decreasing_by all_goals omega

theorem operand_of_clean {level : Precedence} {tokens : List Token} {expr : Expr Unit}
    {rest : List Token} (clean : (operand level tokens).Clean expr rest) :
    ∃ used, tokens = used ++ rest ∧ Expression (operandTier level) used expr := by
  rw [operand] at clean
  split at clean
  · next next tighter =>
      obtain ⟨used, same, derived⟩ := operation_of_clean clean
      refine ⟨used, same, ?_⟩
      cases level <;> cases tighter <;> exact derived
  · next tighter =>
      obtain ⟨used, same, derived⟩ := prefixed_of_clean clean
      refine ⟨used, same, ?_⟩
      cases level <;> first | contradiction | exact derived
termination_by 18 * tokens.length + 2 * level.height + 1
decreasing_by
  · have := Precedence.height_tighter? ‹_›
    omega
  · have := level.height_pos
    omega

theorem operations_of_clean {level : Precedence} {left : Expr Unit} {tokens : List Token}
    {expr : Expr Unit} {rest before : List Token}
    (clean : (operations level left tokens).Clean expr rest)
    (whole : Expression (.operation level) before left) :
    ∃ used, tokens = used ++ rest ∧ Expression (.operation level) (before ++ used) expr := by
  match tokens, clean with
  | [], clean =>
      rw [operations, clean_still] at clean
      obtain ⟨rfl, rfl⟩ := clean
      exact ⟨[], rfl, by rwa [List.append_nil]⟩
  | first :: tokens, clean =>
      rw [operations] at clean
      split at clean
      · next accepted =>
          obtain ⟨terminal, listed, same⟩ := accepts_iff.1 accepted
          rw [clean_behind, clean_behind, clean_andPerhaps] at clean
          obtain ⟨right, middle, shorter, second, more⟩ := clean
          obtain ⟨taken, rfl, derived⟩ := operand_of_clean second
          obtain ⟨used, rfl, all⟩ :=
            operations_of_clean more (.operation whole listed same derived)
          refine ⟨first :: (taken ++ used), by simp, ?_⟩
          simpa only [List.append_assoc, List.cons_append] using all
      · rw [clean_still] at clean
        obtain ⟨rfl, rfl⟩ := clean
        exact ⟨[], rfl, by rwa [List.append_nil]⟩
termination_by 18 * tokens.length
decreasing_by
  · have := level.height_le
    simp only [List.length_cons]
    omega
  · simp only [List.length_cons]
    omega

theorem prefixed_of_clean {tokens : List Token} {expr : Expr Unit} {rest : List Token}
    (clean : (prefixed tokens).Clean expr rest) :
    ∃ used, tokens = used ++ rest ∧ Expression .unary used expr := by
  match tokens, clean with
  | [], clean =>
      rw [prefixed] at clean
      exact absurd clean not_clean_stopped
  | first :: tokens, clean =>
      rw [prefixed] at clean
      split at clean
      · next isOperator =>
          rw [isPrefixOperator_iff] at isOperator
          rw [clean_behind, clean_map] at clean
          obtain ⟨operand, second, rfl⟩ := clean
          obtain ⟨used, rfl, derived⟩ := prefixed_of_clean second
          exact ⟨first :: used, rfl, .unary isOperator derived⟩
      · rw [clean_andPerhaps] at clean
        obtain ⟨callee, middle, shorter, start, more⟩ := clean
        obtain ⟨before, rfl, whole⟩ := primary_of_clean start
        obtain ⟨used, rfl, derived⟩ := suffixes_of_clean more (.primary whole)
        exact ⟨first :: before ++ used, by simp, .noPrefix derived⟩
termination_by 18 * tokens.length + 2
decreasing_by all_goals (simp only [List.length_cons, List.length_append] at *; omega)

theorem suffixes_of_clean {callee : Expr Unit} {tokens : List Token} {expr : Expr Unit}
    {rest before : List Token} (clean : (suffixes callee tokens).Clean expr rest)
    (whole : Expression .call before callee) :
    ∃ used, tokens = used ++ rest ∧ Expression .call (before ++ used) expr := by
  match tokens, clean with
  | [], clean =>
      rw [suffixes, clean_still] at clean
      obtain ⟨rfl, rfl⟩ := clean
      exact ⟨[], rfl, by rwa [List.append_nil]⟩
  | first :: tokens, clean =>
      rw [suffixes] at clean
      split at clean
      · next isOpening =>
          rw [Token.isSymbol_iff] at isOpening
          rw [clean_behind, clean_behind, clean_andPerhaps] at clean
          obtain ⟨⟨arguments, paren⟩, middle, shorter, inner, more⟩ := clean
          obtain ⟨rows, inside, rfl, rfl, separated, derived, few, isClosing⟩ :=
            argumentList_of_clean inner
          obtain ⟨used, rfl, all⟩ := suffixes_of_clean more
            (.call whole isOpening separated derived few isClosing)
          refine ⟨first :: (inside ++ paren :: used), by simp, ?_⟩
          simpa only [List.append_assoc, List.cons_append, List.nil_append] using all
      · split at clean
        · next isDot =>
            rw [Token.isSymbol_iff] at isDot
            rw [clean_behind, clean_behind, clean_andPerhaps] at clean
            obtain ⟨name, middle, shorter, inner, more⟩ := clean
            obtain ⟨rfl, isName⟩ := clean_expect.1 inner
            rw [Token.isIdentifier_iff] at isName
            obtain ⟨used, rfl, all⟩ := suffixes_of_clean more (.property whole isDot isName)
            refine ⟨first :: name :: used, rfl, ?_⟩
            simpa only [List.append_assoc, List.cons_append, List.nil_append] using all
        · rw [clean_still] at clean
          obtain ⟨rfl, rfl⟩ := clean
          exact ⟨[], rfl, by rwa [List.append_nil]⟩
termination_by 18 * tokens.length
decreasing_by all_goals (simp only [List.length_cons, List.length_append] at *; omega)

theorem argumentList_of_clean {tokens : List Token} {arguments : List (Expr Unit)}
    {paren : Token} {rest : List Token}
    (clean : (argumentList tokens).Clean (arguments, paren) rest) :
    ∃ (rows : Rows) (inside : List Token), tokens = inside ++ paren :: rest ∧
      arguments = rows.map Prod.snd ∧ Separated (rows.map Prod.fst) inside ∧
      rows.Expressions ∧ rows.length ≤ 8 ∧ paren.kind = .symbol .rightParen := by
  match tokens, clean with
  | [], clean =>
      rw [argumentList] at clean
      exact absurd clean not_clean_stopped
  | first :: tokens, clean =>
      rw [argumentList] at clean
      split at clean
      · next isClosing =>
          rw [Token.isSymbol_iff] at isClosing
          rw [clean_still] at clean
          obtain ⟨same, rfl⟩ := clean
          cases same
          exact ⟨[], [], rfl, rfl, .none, by simp [Rows.Expressions], by simp, isClosing⟩
      · rw [clean_andThen] at clean
        obtain ⟨found, middle, shorter, inner, closing⟩ := clean
        simp only [clean_map, clean_expect, Prod.mk.injEq] at closing
        obtain ⟨_, ⟨rfl, isClosing⟩, rfl, rfl⟩ := closing
        rw [Token.isSymbol_iff] at isClosing
        obtain ⟨rows, inside, same, values, separated, derived, few, _⟩ :=
          arguments_of_clean inner
        exact ⟨rows, inside, same, values, separated, derived, by omega, isClosing⟩
termination_by 18 * tokens.length + 17
decreasing_by omega

theorem arguments_of_clean {count : Nat} {tokens : List Token} {found : List (Expr Unit)}
    {rest : List Token} (clean : (arguments count tokens).Clean found rest) :
    ∃ (rows : Rows) (inside : List Token), tokens = inside ++ rest ∧
      found = rows.map Prod.snd ∧ Separated (rows.map Prod.fst) inside ∧
      rows.Expressions ∧ count + rows.length ≤ 8 ∧ rows ≠ [] := by
  rw [arguments, clean_andPerhaps] at clean
  obtain ⟨value, middle, shorter, first, more⟩ := clean
  rw [clean_noticing] at first
  obtain ⟨quiet, first⟩ := first
  have few : count < 8 := by
    by_contra many
    have reached : mostArguments ≤ count := Nat.le_of_not_lt many
    rw [if_pos reached] at quiet
    cases quiet
  obtain ⟨used, same, whole⟩ := expression_of_clean first
  rw [clean_map] at more
  obtain ⟨others, behind, rfl⟩ := more
  obtain ⟨rows, taken, rfl, rfl, follow, fits⟩ := furtherArguments_of_clean behind few
  refine ⟨(used, value) :: rows, used ++ taken, by rw [same, List.append_assoc], rfl,
    follow.2 used, ?_, ?_, List.cons_ne_nil _ _⟩
  · rintro row member
    rcases List.mem_cons.1 member with rfl | member
    · exact whole
    · exact follow.1 row member
  · simp only [List.length_cons]
    omega
termination_by 18 * tokens.length + 16
decreasing_by all_goals omega

theorem furtherArguments_of_clean {count : Nat} {tokens : List Token}
    {found : List (Expr Unit)} {rest : List Token}
    (clean : (furtherArguments (count + 1) tokens).Clean found rest) (few : count < 8) :
    ∃ (rows : Rows) (used : List Token), tokens = used ++ rest ∧
      found = rows.map Prod.snd ∧ rows.Follow used ∧ count + 1 + rows.length ≤ 8 := by
  have ends (left : List Token) : ∃ (rows : Rows) (used : List Token),
      left = used ++ left ∧ ([] : List (Expr Unit)) = rows.map Prod.snd ∧ rows.Follow used ∧
        count + 1 + rows.length ≤ 8 :=
    ⟨[], [], rfl, rfl, ⟨by simp [Rows.Expressions], fun first => by simpa using .one first⟩,
      by simpa using Nat.succ_le_of_lt few⟩
  match tokens, clean with
  | [], clean =>
      rw [furtherArguments, clean_still] at clean
      obtain ⟨rfl, rfl⟩ := clean
      exact ends []
  | comma :: tokens, clean =>
      rw [furtherArguments] at clean
      split at clean
      · next isComma =>
          rw [Token.isSymbol_iff] at isComma
          rw [clean_behind, clean_behind] at clean
          obtain ⟨rows, inside, rfl, rfl, separated, derived, fits, some⟩ :=
            arguments_of_clean clean
          refine ⟨rows, comma :: inside, rfl, rfl, ⟨derived, fun first => ?_⟩, fits⟩
          obtain ⟨second, others, rfl⟩ := List.exists_cons_of_ne_nil some
          exact .more isComma separated
      · rw [clean_still] at clean
        obtain ⟨rfl, rfl⟩ := clean
        exact ends _
termination_by 18 * tokens.length
decreasing_by
  simp only [List.length_cons]
  omega

theorem primary_of_clean {first : Token} {tokens : List Token} {expr : Expr Unit}
    {rest : List Token} (clean : (primary first tokens).Clean expr rest) :
    ∃ used, tokens = used ++ rest ∧ Expression .primary (first :: used) expr := by
  rw [primary] at clean
  split at clean
  · next found =>
      rw [acting_eq, clean_still] at clean
      obtain ⟨rfl, rfl⟩ := clean
      exact ⟨[], rfl, primary_of_atom? found⟩
  · split at clean
    · next isOpening =>
        rw [Token.isSymbol_iff] at isOpening
        rw [clean_behind, clean_andThen] at clean
        obtain ⟨inner, middle, shorter, inside, closing⟩ := clean
        simp only [clean_map, clean_expect] at closing
        obtain ⟨paren, ⟨rfl, isClosing⟩, rfl⟩ := closing
        rw [Token.isSymbol_iff] at isClosing
        obtain ⟨used, rfl, derived⟩ := expression_of_clean inside
        exact ⟨used ++ [paren], by simp, .grouping isOpening derived isClosing⟩
    · exact absurd clean not_clean_stopped
termination_by 18 * tokens.length + 16
decreasing_by omega

end

end Lox.Grammar
