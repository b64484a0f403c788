/-
# What is derived as an expression is read

The other direction: the functions that read take exactly the row of tokens
that the grammar derives, if what follows the row does not go on with it.
What may not follow depends on the tier.  An operation ends in front of any
token that is no operator of its level or a tighter one and does not start a
call or a property; an assignment also not in front of a `=`.

A left operand is read before it is known whether an operator follows.  The
claims about operations and calls are therefore stated with the loop that
reads on behind the row.
-/

import Lox.Proofs.Grammar
import Lox.Proofs.Grammar.Clean
import Lox.Proofs.Grammar.Soundness.Expression

namespace Lox.Grammar

open Reader

/-- The token starts the arguments of a call or the name of a property. -/
def StartsSuffix (token : Token) : Prop :=
  token.kind = .symbol .leftParen ∨ token.kind = .symbol .dot

/-- The token is an operator of the level or of a tighter one. -/
def OperatesFrom (level : Precedence) (token : Token) : Prop :=
  ∃ tighter : Precedence, tighter.height ≤ level.height ∧ tighter.accepts token = true

/-- The token would go on with an expression of the tier in front of it. -/
def Continues : Tier → Token → Prop
  | .primary, _ => False
  | .call, token => StartsSuffix token
  | .unary, token => StartsSuffix token
  | .operation level, token => StartsSuffix token ∨ OperatesFrom level token
  | .assignment, token =>
    StartsSuffix token ∨ OperatesFrom .disjunction token ∨ token.kind = .symbol .equal

/-- An expression of the tier ends in front of these tokens. -/
def Ends (tier : Tier) (tokens : List Token) : Prop :=
  ∀ token ∈ tokens.head?, ¬ Continues tier token

theorem ends_cons {tier : Tier} {token : Token} {tokens : List Token} :
    Ends tier (token :: tokens) ↔ ¬ Continues tier token := by
  simp [Ends]

theorem Ends.disjunction {tokens : List Token} (ends : Ends .assignment tokens) :
    Ends (.operation .disjunction) tokens :=
  fun token first goesOn => ends token first (goesOn.imp_right .inl)

theorem Ends.operand {level : Precedence} {tokens : List Token}
    (ends : Ends (.operation level) tokens) : Ends (operandTier level) tokens := by
  intro token first goesOn
  apply ends token first
  cases level with
  | factor => exact .inl goesOn
  | _ =>
      rcases goesOn with goesOn | ⟨tighter, low, accepted⟩
      · exact .inl goesOn
      · exact .inr ⟨tighter, Nat.le_succ_of_le low, accepted⟩

theorem Ends.not_accepts {level : Precedence} {token : Token} {tokens : List Token}
    (ends : Ends (.operation level) (token :: tokens)) : ¬ level.accepts token = true :=
  fun accepted => ends_cons.1 ends (.inr ⟨level, Nat.le_refl _, accepted⟩)

/-- A token is an operator of one level at most. -/
theorem accepts_unique {level other : Precedence} {token : Token}
    (accepted : level.accepts token = true) (again : other.accepts token = true) :
    level = other := by
  unfold Precedence.accepts at accepted again
  split at accepted <;> split at again <;> simp_all

/-- No operator of a level opens, closes or separates anything. -/
theorem kind_of_accepts {level : Precedence} {token : Token}
    (accepted : level.accepts token = true) {symbol : Symbol}
    (same : token.kind = .symbol symbol) :
    symbol ∉ [Symbol.leftParen, .dot, .equal, .semicolon, .rightParen, .comma] := by
  intro listed
  simp only [List.mem_cons, List.not_mem_nil, or_false] at listed
  unfold Precedence.accepts at accepted
  rw [same] at accepted
  rcases listed with rfl | rfl | rfl | rfl | rfl | rfl <;> cases level <;> simp at accepted

theorem height_lt_of_operandTier {level tighter : Precedence}
    (next : operandTier level = .operation tighter) : tighter.height < level.height := by
  cases level <;> cases next <;> decide

/-- An operand ends in front of an operator of its level. -/
theorem ends_operand_of_accepts {level : Precedence} {token : Token} {tokens : List Token}
    (accepted : level.accepts token = true) : Ends (operandTier level) (token :: tokens) := by
  have noCall : ¬ StartsSuffix token := by
    rintro (isOpening | isDot)
    · exact kind_of_accepts accepted isOpening (by decide)
    · exact kind_of_accepts accepted isDot (by decide)
  rw [ends_cons]
  cases next : operandTier level with
  | operation tighter =>
      rintro (goesOn | ⟨other, low, again⟩)
      · exact noCall goesOn
      · have := height_lt_of_operandTier next
        rw [← accepts_unique accepted again] at low
        omega
  | unary => exact noCall
  | _ => cases level <;> cases next

/-- An operation ends in front of the sign of an assignment. -/
theorem ends_disjunction_of_equal {token : Token} {tokens : List Token}
    (isEqual : token.kind = .symbol .equal) : Ends (.operation .disjunction) (token :: tokens) := by
  rw [ends_cons]
  rintro ((isOpening | isDot) | ⟨level, low, accepted⟩)
  · simp [isEqual] at isOpening
  · simp [isEqual] at isDot
  · exact kind_of_accepts accepted isEqual (by decide)

/-- The kinds of token in front of which every expression ends. -/
def EndsAll (token : Token) : Prop :=
  token.kind = .symbol .semicolon ∨ token.kind = .symbol .rightParen ∨
    token.kind = .symbol .comma

theorem EndsAll.ends {token : Token} (closes : EndsAll token) (tokens : List Token) :
    Ends .assignment (token :: tokens) := by
  rw [ends_cons]
  rintro ((isOpening | isDot) | ⟨level, low, accepted⟩ | isEqual)
  · rcases closes with same | same | same <;> simp [same] at isOpening
  · rcases closes with same | same | same <;> simp [same] at isDot
  · rcases closes with same | same | same <;>
      exact kind_of_accepts accepted same (by decide)
  · rcases closes with same | same | same <;> simp [same] at isEqual

/-- An expression can start with the token. -/
def StartsExpression (token : Token) : Prop :=
  isPrefixOperator token = true ∨ (atom? token).isSome ∨ token.kind = .symbol .leftParen

/-- The tokens of an expression start with one that an expression can start with. -/
theorem Expression.starts {tier : Tier} {tokens : List Token} {expr : Expr Unit}
    (derived : Expression tier tokens expr) :
    ∃ first more, tokens = first :: more ∧ StartsExpression first := by
  induction derived with
  | assignVariable isName => exact ⟨_, _, rfl, .inr (.inl (by simp [atom?, isName]))⟩
  | assignProperty _ _ _ _ _ ih =>
      obtain ⟨first, more, rfl, starts⟩ := ih
      exact ⟨first, _, rfl, starts⟩
  | unassigned _ ih => exact ih
  | operation _ _ _ _ ih =>
      obtain ⟨first, more, rfl, starts⟩ := ih
      exact ⟨first, _, rfl, starts⟩
  | operand _ ih => exact ih
  | unary isOperator =>
      exact ⟨_, _, rfl, .inl (isPrefixOperator_iff.2 isOperator)⟩
  | noPrefix _ ih => exact ih
  | call _ _ _ _ _ _ ih =>
      obtain ⟨first, more, rfl, starts⟩ := ih
      exact ⟨first, _, rfl, starts⟩
  | property _ _ _ ih =>
      obtain ⟨first, more, rfl, starts⟩ := ih
      exact ⟨first, _, rfl, starts⟩
  | primary _ ih => exact ih
  | grouping isOpening => exact ⟨_, _, rfl, .inr (.inr isOpening)⟩
  | number same => exact ⟨_, _, rfl, .inr (.inl (by simp [atom?, same]))⟩
  | string same => exact ⟨_, _, rfl, .inr (.inl (by simp [atom?, same]))⟩
  | trueWord same => exact ⟨_, _, rfl, .inr (.inl (by simp [atom?, same]))⟩
  | falseWord same => exact ⟨_, _, rfl, .inr (.inl (by simp [atom?, same]))⟩
  | nilWord same => exact ⟨_, _, rfl, .inr (.inl (by simp [atom?, same]))⟩
  | thisWord same => exact ⟨_, _, rfl, .inr (.inl (by simp [atom?, same]))⟩
  | reference same => exact ⟨_, _, rfl, .inr (.inl (by simp [atom?, same]))⟩

/-- What one expression derives as an atom, it reads as. -/
theorem atom?_of_kind {token : Token} {expr : Expr Unit}
    (derived : Expression .primary [token] expr) : atom? token = some expr := by
  generalize same : [token] = tokens at derived
  cases derived with
  | grouping =>
      have lengths := congrArg List.length same
      simp at lengths
  | _ kind =>
      cases same
      simp only [atom?, kind]
      rfl

/-- The tokens that are derived, with the tree, as the functions of the tier
read them. -/
def Reads : Tier → List Token → Expr Unit → Prop
  | .assignment, used, expr =>
    ∀ rest, Ends .assignment rest → (expression (used ++ rest)).Clean expr rest
  | .operation level, used, expr =>
    ∀ rest found left, Ends (operandTier level) rest →
      (operations level expr rest).Clean found left →
        (Lox.operation level (used ++ rest)).Clean found left
  | .unary, used, expr =>
    ∀ rest, Ends .unary rest → (prefixed (used ++ rest)).Clean expr rest
  | .call, used, expr =>
    ∀ rest found left, (suffixes expr rest).Clean found left →
      (prefixed (used ++ rest)).Clean found left
  | .primary, used, expr =>
    ∃ first more, used = first :: more ∧ isPrefixOperator first = false ∧
      ∀ rest, (Lox.primary first (more ++ rest)).Clean expr rest

/-- Where an operation ends, the loop over its operators does too. -/
theorem clean_operations {level : Precedence} {expr : Expr Unit} {rest : List Token}
    (ends : Ends (.operation level) rest) : (operations level expr rest).Clean expr rest := by
  cases rest with
  | nil => simp [operations]
  | cons token rest =>
      rw [operations, if_neg ends.not_accepts]
      simp

/-- Where a call ends, the loop over calls and properties does too. -/
theorem clean_suffixes {expr : Expr Unit} {rest : List Token} (ends : Ends .call rest) :
    (suffixes expr rest).Clean expr rest := by
  cases rest with
  | nil => simp [suffixes]
  | cons token rest =>
      rw [ends_cons] at ends
      rw [suffixes, if_neg fun opening => ends (.inl (Token.isSymbol_iff.1 opening)),
        if_neg fun dot => ends (.inr (Token.isSymbol_iff.1 dot))]
      simp

namespace Reads

variable {used : List Token} {expr : Expr Unit} {level : Precedence}

theorem operation_clean (reads : Reads (.operation level) used expr) (rest : List Token)
    (ends : Ends (.operation level) rest) :
    (Lox.operation level (used ++ rest)).Clean expr rest :=
  reads rest expr rest ends.operand (clean_operations ends)

theorem unary_of_call (reads : Reads .call used expr) : Reads .unary used expr :=
  fun rest ends => reads rest expr rest (clean_suffixes ends)

/-- What an operand of a level reads, its reader reads. -/
theorem operand_clean (reads : Reads (operandTier level) used expr) {rest : List Token}
    (ends : Ends (operandTier level) rest) :
    (Lox.operand level (used ++ rest)).Clean expr rest := by
  rw [Lox.operand]
  cases level with
  | factor => exact reads rest ends
  | _ => exact operation_clean reads rest ends

theorem operation_of_operand (reads : Reads (operandTier level) used expr) :
    Reads (.operation level) used expr := by
  intro rest found left ends more
  rw [Lox.operation, clean_andPerhaps]
  have first := operand_clean reads ends
  exact ⟨expr, rest, first.length_lt, first, more⟩

/-- A call can stand wherever an operation can. -/
theorem operation_of_call (reads : Reads .call used expr) (level : Precedence) :
    Reads (.operation level) used expr := by
  have factor : Reads (.operation .factor) used expr :=
    operation_of_operand (unary_of_call reads)
  have term : Reads (.operation .term) used expr := operation_of_operand factor
  have comparison : Reads (.operation .comparison) used expr := operation_of_operand term
  have equality : Reads (.operation .equality) used expr := operation_of_operand comparison
  have conjunction : Reads (.operation .conjunction) used expr := operation_of_operand equality
  cases level with
  | disjunction => exact operation_of_operand conjunction
  | conjunction => exact conjunction
  | equality => exact equality
  | comparison => exact comparison
  | term => exact term
  | factor => exact factor

/-- An operator and a further operand extend an operation. -/
theorem operation_extend {behind : List Token} {operator : Token} {right : Expr Unit}
    (first : Reads (.operation level) used expr) (accepted : level.accepts operator = true)
    (second : Reads (operandTier level) behind right) :
    Reads (.operation level) (used ++ operator :: behind) (level.node expr operator right) := by
  intro rest found left ends more
  rw [List.append_assoc, List.cons_append]
  apply first _ found left (ends_operand_of_accepts accepted)
  rw [operations, if_pos accepted, clean_behind, clean_behind, clean_andPerhaps]
  have one := second.operand_clean ends
  exact ⟨right, rest, one.length_lt, one, more⟩

/-- A `=` and a value make an operation the target of an assignment. -/
theorem assignment_of_target {before tokens : List Token} {target value : Expr Unit}
    {equals : Token} (reads : Reads (.operation .disjunction) before target)
    (isEqual : equals.kind = .symbol .equal) (source : Reads .assignment tokens value)
    (quiet : assigned target equals value = (expr, [])) :
    Reads .assignment (before ++ equals :: tokens) expr := by
  intro rest ends
  rw [List.append_assoc, List.cons_append, expression, clean_andPerhaps]
  have first := reads.operation_clean (equals :: (tokens ++ rest))
    (ends_disjunction_of_equal isEqual)
  refine ⟨target, _, first.length_lt, first, ?_⟩
  rw [assignment, if_pos (Token.isSymbol_iff.2 isEqual), clean_behind, clean_behind,
    clean_andPerhaps]
  have second := source rest ends
  refine ⟨value, rest, second.length_lt, second, ?_⟩
  simp [quiet]

theorem unassigned (reads : Reads (.operation .disjunction) used expr) :
    Reads .assignment used expr := by
  intro rest ends
  rw [expression, clean_andPerhaps]
  have first := reads.operation_clean rest ends.disjunction
  refine ⟨expr, rest, first.length_lt, first, ?_⟩
  cases rest with
  | nil => simp [assignment]
  | cons token rest =>
      rw [ends_cons] at ends
      rw [assignment, if_neg fun equal => ends (.inr (.inr (Token.isSymbol_iff.1 equal)))]
      simp

theorem unary (reads : Reads .unary used expr) {operator : Token}
    (isOperator : isPrefixOperator operator = true) :
    Reads .unary (operator :: used) (.unary operator expr) := by
  intro rest ends
  rw [List.cons_append, prefixed, if_pos isOperator, clean_behind, clean_map]
  exact ⟨expr, reads rest ends, rfl⟩

theorem call_of_primary (reads : Reads .primary used expr) : Reads .call used expr := by
  obtain ⟨first, more, rfl, noPrefix, reads⟩ := reads
  intro rest found left others
  rw [List.cons_append, prefixed, if_neg (Bool.not_eq_true _ ▸ noPrefix), clean_andPerhaps]
  exact ⟨expr, rest, (reads rest).length_lt, reads rest, others⟩

theorem property (reads : Reads .call used expr) {dot name : Token}
    (isDot : dot.kind = .symbol .dot) (isName : name.kind = .identifier) :
    Reads .call (used ++ [dot, name]) (.get expr name) := by
  intro rest found left more
  rw [List.append_assoc]
  apply reads
  rw [List.cons_append, List.cons_append, List.nil_append, suffixes,
    if_neg (by simp [Token.isSymbol, isDot]), if_pos (Token.isSymbol_iff.2 isDot), clean_behind,
    clean_behind, clean_andPerhaps]
  exact ⟨name, rest, Nat.lt_succ_self _, clean_expect.2 ⟨rfl, Token.isIdentifier_iff.2 isName⟩,
    more⟩

end Reads

/-- Rows with commas between them start with the first row. -/
theorem Separated.exists_append {first tokens : List Token} {others : List (List Token)}
    (separated : Separated (first :: others) tokens) : ∃ behind, tokens = first ++ behind := by
  cases separated with
  | one => exact ⟨[], (List.append_nil _).symm⟩
  | more => exact ⟨_, rfl⟩

/-- Every row of a call's arguments is read. -/
def Rows.Read (rows : Rows) : Prop :=
  ∀ row ∈ rows, Reads .assignment row.1 row.2

/-- Arguments with commas between them are read up to what closes them. -/
theorem Rows.Read.arguments_clean {row : List Token × Expr Unit} {rows : Rows}
    (read : Rows.Read (row :: rows)) {inside : List Token}
    (separated : Separated ((row :: rows).map Prod.fst) inside) (count : Nat)
    (few : count + (row :: rows).length ≤ 8) {closing : Token}
    (isClosing : closing.kind = .symbol .rightParen) (rest : List Token) :
    (arguments count (inside ++ closing :: rest)).Clean ((row :: rows).map Prod.snd)
      (closing :: rest) := by
  induction rows generalizing row inside count with
  | nil =>
      cases separated
      have first := read row (List.mem_singleton_self row) (closing :: rest)
        (EndsAll.ends (.inr (.inl isClosing)) _)
      rw [arguments, clean_andPerhaps]
      refine ⟨row.2, _, first.length_lt, clean_noticing.2 ⟨?_, first⟩, ?_⟩
      · rw [if_neg]
        simp only [List.length_singleton] at few
        exact Nat.not_le.2 few
      · rw [furtherArguments, if_neg (by simp [Token.isSymbol, isClosing])]
        simp
  | cons second others ih =>
      obtain - | - | @⟨_, _, behind, _, comma, isComma, more⟩ := separated
      have first := read row List.mem_cons_self (comma :: (behind ++ closing :: rest))
        (EndsAll.ends (.inr (.inr isComma)) _)
      rw [List.append_assoc, List.cons_append, arguments, clean_andPerhaps]
      refine ⟨row.2, _, first.length_lt, clean_noticing.2 ⟨?_, first⟩, ?_⟩
      · rw [if_neg]
        simp only [List.length_cons] at few
        apply Nat.not_le.2
        show count < 8
        omega
      · rw [clean_map, furtherArguments, if_pos (Token.isSymbol_iff.2 isComma)]
        refine ⟨_, ?_, rfl⟩
        rw [clean_behind, clean_behind]
        apply ih (fun row member => read row (List.mem_cons_of_mem _ member)) more (count + 1)
        simp only [List.length_cons] at few ⊢
        omega

/-- The arguments of a call are read with the parenthesis that closes them. -/
theorem Rows.Read.argumentList_clean {rows : Rows} (read : Rows.Read rows)
    (derived : rows.Expressions) {inside : List Token}
    (separated : Separated (rows.map Prod.fst) inside) (few : rows.length ≤ 8) {closing : Token}
    (isClosing : closing.kind = .symbol .rightParen) (rest : List Token) :
    (argumentList (inside ++ closing :: rest)).Clean (rows.map Prod.snd, closing) rest := by
  cases rows with
  | nil =>
      cases separated
      rw [List.nil_append, argumentList, if_pos (Token.isSymbol_iff.2 isClosing)]
      simp
  | cons row rows =>
      have all := read.arguments_clean separated 0 (by omega) isClosing rest
      obtain ⟨first, more, same, starts⟩ : ∃ first more, inside = first :: more ∧
          StartsExpression first := by
        obtain ⟨first, more, same, starts⟩ := (derived row List.mem_cons_self).starts
        obtain ⟨others, rfl⟩ := separated.exists_append
        exact ⟨first, more ++ others, by rw [same, List.cons_append], starts⟩
      have noClosing : ¬ first.isSymbol .rightParen = true := by
        rw [Token.isSymbol_iff]
        intro kind
        simp [StartsExpression, isPrefixOperator, Token.isSymbol, atom?, kind] at starts
      subst same
      rw [List.cons_append, argumentList, if_neg noClosing, clean_andThen]
      refine ⟨_, _, all.length_lt, all, ?_⟩
      rw [clean_map]
      exact ⟨closing, clean_expect.2 ⟨rfl, Token.isSymbol_iff.2 isClosing⟩, rfl⟩

/-- What the grammar derives is read as its tree. -/
theorem Expression.reads {tier : Tier} {tokens : List Token} {expr : Expr Unit}
    (derived : Expression tier tokens expr) : Reads tier tokens expr := by
  induction derived with
  | @assignVariable name equals tokens value isName isEqual _ ih =>
      have target : Reads .primary [name] (.variable () name) := by
        refine ⟨name, [], rfl, ?_, fun rest => ?_⟩
        · simp [isPrefixOperator, Token.isSymbol, isName]
        · rw [Lox.primary, atom?_of_kind (.reference isName)]
          simp
      have called := target.call_of_primary.operation_of_call .disjunction
      exact called.assignment_of_target isEqual ih rfl
  | @assignProperty before tokens object value dot name equals _ isDot isName isEqual _ ih ih' =>
      have target := (ih.property isDot isName).operation_of_call .disjunction
      simpa only [List.append_assoc, List.cons_append, List.nil_append] using
        target.assignment_of_target isEqual ih' rfl
  | unassigned _ ih => exact ih.unassigned
  | operation _ listed same _ ih ih' =>
      exact ih.operation_extend (accepts_iff.2 ⟨_, listed, same⟩) ih'
  | operand _ ih => exact ih.operation_of_operand
  | unary isOperator _ ih => exact ih.unary (isPrefixOperator_iff.2 isOperator)
  | noPrefix _ ih => exact ih.unary_of_call
  | call _ isOpening separated derived few isClosing ih ih' =>
      intro rest found left more
      rw [List.append_assoc]
      apply ih
      have inner := Rows.Read.argumentList_clean ih' derived separated few isClosing rest
      rw [List.cons_append, List.append_assoc, suffixes, if_pos (Token.isSymbol_iff.2 isOpening),
        clean_behind, clean_behind, clean_andPerhaps]
      exact ⟨_, rest, inner.length_lt, inner, more⟩
  | property _ isDot isName ih => exact ih.property isDot isName
  | primary _ ih => exact ih.call_of_primary
  | @grouping opening closing tokens inner isOpening _ isClosing ih =>
      refine ⟨opening, _, rfl, by simp [isPrefixOperator, Token.isSymbol, isOpening], ?_⟩
      intro rest
      have inside := ih (closing :: rest) (EndsAll.ends (.inr (.inl isClosing)) _)
      have noAtom : atom? opening = none := by simp [atom?, isOpening]
      rw [List.append_assoc, List.cons_append, List.nil_append, Lox.primary]
      simp only [noAtom, if_pos (Token.isSymbol_iff.2 isOpening), clean_behind]
      rw [clean_andThen]
      refine ⟨inner, _, inside.length_lt, inside, ?_⟩
      rw [clean_map]
      exact ⟨closing, clean_expect.2 ⟨rfl, Token.isSymbol_iff.2 isClosing⟩, rfl⟩
  | _ same =>
      refine ⟨_, [], rfl, by simp [isPrefixOperator, Token.isSymbol, same], fun rest => ?_⟩
      simp [Lox.primary, atom?, same]
      rfl

/-- An expression is read if nothing behind it goes on with it. -/
theorem Expression.clean {tokens : List Token} {expr : Expr Unit}
    (derived : Expression .assignment tokens expr) {rest : List Token}
    (ends : Ends .assignment rest) : (expression (tokens ++ rest)).Clean expr rest :=
  derived.reads rest ends

end Lox.Grammar
