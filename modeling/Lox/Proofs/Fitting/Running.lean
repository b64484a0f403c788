/-
# Runs of trees that fit

Whatever a session has run before, each moment to which an accepted text comes is about
a tree that was read, and so about one that fits (`Moment.Good.fits`).  So the last case
of the prefix operators is met by `-` alone, and that of the logical ones by `and`; the
last case of the infix operators, which is a fault, is met by none, and no text is stopped
by it.
-/

import Lox.Proofs.Agreement.Session
import Lox.Proofs.Fitting

namespace Lox

variable {texts : List Text} {distances : Distances}

/-- The ten infix operators have a value or take other operands. -/
theorem infixValue_ne_invalidOperator {ρ γ : Type} {operator : Token} {symbol : Symbol}
    (listed : symbol ∈ infixSymbols) (same : operator.kind = .symbol symbol)
    (left right : ValueOf ρ γ) (name : String) :
    infixValue operator left right ≠ .error (.invalidOperator name) := by
  simp only [infixSymbols, List.mem_cons, List.not_mem_nil, or_false] at listed
  unfold infixValue sumValue arithmeticValue
  rcases listed with rfl | rfl | rfl | rfl | rfl | rfl | rfl | rfl | rfl | rfl <;> grind

/-- What a task is about fits. -/
def Task.Fits : Task → Prop
  | .evaluate expr => expr.Fits
  | .evaluateAll exprs => ∀ expr ∈ exprs, expr.Fits
  | .call _ _ _ => True
  | .execute stmt => stmt.Fits
  | .loop condition body => (Stmt.whileLoop condition body).Fits
  | .executeAll stmts => ∀ stmt ∈ stmts, stmt.Fits

namespace Moment

/-- At this moment every operator is one that the evaluator knows, and the last case of a
choice of operators stands for one of them. -/
structure KnowsOperator (moment : Moment) : Prop where
  fits : moment.task.Fits
  negates : ∀ operator operand, moment.task = .evaluate (.unary operator operand) →
    operator.isSymbol .bang = false → operator.kind = .symbol .minus
  conjoins : ∀ left operator right, moment.task = .evaluate (.logical left operator right) →
    operator.isKeyword .orWord = false → operator.kind = .keyword .andWord

/-- What a good moment is about was read, so that it fits. -/
theorem Good.fits {moment : Moment} (good : moment.Good texts) : moment.task.Fits := by
  obtain ⟨n, task, m⟩ := moment
  obtain ⟨_, ready⟩ := good
  cases task with
  | call => trivial
  | evaluate expr =>
      obtain ⟨analysis, visited, _⟩ := ready
      exact Expr.Shaped.fits visited.shaped
  | evaluateAll exprs =>
      obtain ⟨analysis, visited, _⟩ := ready
      exact Expr.AllShaped.fits visited.shaped
  | execute stmt =>
      obtain ⟨analysis, visited, _⟩ := ready
      exact Stmt.Shaped.fits visited.shaped
  | loop condition body =>
      obtain ⟨analysis, visited, _⟩ := ready
      exact Stmt.Shaped.fits visited.shaped
  | executeAll stmts =>
      obtain ⟨analysis, visited, _⟩ := ready
      exact Stmt.AllShaped.fits visited.shaped

theorem Good.knowsOperator {moment : Moment} (good : moment.Good texts) :
    moment.KnowsOperator := by
  refine ⟨good.fits, fun operator operand about other => ?_,
    fun left operator right about other => ?_⟩
  · have fits := good.fits
    rw [about] at fits
    refine fits.resolve_left fun isBang => ?_
    rw [Token.isSymbol_iff.2 isBang] at other
    cases other
  · have fits := good.fits
    rw [about] at fits
    refine fits.resolve_right fun isOr => ?_
    rw [Token.isKeyword_iff.2 isOr] at other
    cases other

/-- Where a tree fits, no operator is invalid. -/
theorem Raises.not_invalidOperator {moment : Moment} {name : String} {line : Nat}
    (fits : moment.task.Fits) :
    ¬ moment.Raises distances (.runtime ⟨.invalidOperator name, line⟩) := by
  intro raises
  generalize same : Interrupt.runtime ⟨.invalidOperator name, line⟩ = interrupt at raises
  cases raises with
  | operand ran wrong =>
      cases same
      cases fault_of_prefixValue wrong
  | operands ran ran' wrong =>
      cases same
      obtain ⟨symbol, listed, isSymbol⟩ := fits
      exact infixValue_ne_invalidOperator listed isSymbol _ _ _ wrong
  | _ => cases same

end Moment

namespace Session.History

variable {session : Session} {entry : Entry} {source : String}

/-- No text is stopped by an operator that the evaluator does not know. -/
theorem ne_invalidOperator (history : session.History texts) (allowance : Nat) (entry : Entry)
    (source : String) (name : String) (line : Nat) :
    (session.enter allowance entry source).2 ≠
      some (.interrupted (.runtime ⟨.invalidOperator name, line⟩)) := by
  intro stopped
  cases accepted : session.accepted? entry source with
  | none =>
      rw [(enter_rejected allowance accepted).1] at stopped
      cases stopped
  | some text =>
      rw [enter_accepted allowance accepted] at stopped
      obtain ⟨later, ran⟩ := error_of_perform stopped
      rcases (starts_of_stopped_computation entry allowance text.program session.machine).stopped
        ran with ⟨_, ⟨⟩⟩ | ⟨first, moment, starts, reaches, raises⟩
      obtain ⟨_, rfl⟩ := accepted?_eq_some.1 accepted
      have comes : session.ComesTo allowance entry source moment := ⟨first, starts, reaches⟩
      exact Moment.Raises.not_invalidOperator (history.good accepted comes).fits raises

end Session.History

/-- All trees that are read, of any tokens and with any errors, fit the evaluator.  So
at every moment to which an accepted text comes the evaluator knows the operator, also
where it does not ask for it, and no text is stopped by an invalid one. -/
theorem trees_fit_evaluator :
    (∀ trailing tokens, (Program.ofTokens trailing tokens).Fits) ∧
    ∀ (session : Session) (texts : List Text), session.History texts →
      ∀ (allowance : Nat) (entry : Entry) (source : String),
        (∀ text moment, session.accepted? entry source = some text →
          session.ComesTo allowance entry source moment → moment.KnowsOperator) ∧
        ∀ name line, (session.enter allowance entry source).2 ≠
          some (.interrupted (.runtime ⟨.invalidOperator name, line⟩)) :=
  ⟨Program.fits_ofTokens, fun _ _ history allowance entry source =>
    ⟨fun _ _ accepted comes => (history.good accepted comes).knowsOperator,
      history.ne_invalidOperator allowance entry source⟩⟩

/-- A prefix expression stands before a logical operator. -/
def minusOneAndTrue : String :=
  "-1 and true;"

/-- The one statement joins a prefix expression to another one, and the operators are
neither `!` nor `or`, so that both are left to the last case. -/
def meetsLastCases : List (Stmt Reference) → Bool
  | [.expression (.logical (.unary sign _) joint _)] =>
    !sign.isSymbol .bang && !joint.isKeyword .orWord
  | _ => false

theorem minusOneAndTrue_fits : ∃ text sign operand joint right,
    Session.start.History [] ∧
    Session.start.accepted? .script minusOneAndTrue = some text ∧
    Session.start.ComesTo 100 .script minusOneAndTrue
      ⟨99, .evaluate (.logical (.unary sign operand) joint right), Session.start.machine⟩ ∧
    joint.isKeyword .orWord = false ∧ joint.kind = .keyword .andWord ∧
    Session.start.ComesTo 100 .script minusOneAndTrue
      ⟨98, .evaluate (.unary sign operand), Session.start.machine⟩ ∧
    sign.isSymbol .bang = false ∧ sign.kind = .symbol .minus := by
  have history : Session.start.History [] := .start {} (.ticking 0)
  have quiet : (Session.start.errors .script minusOneAndTrue).isEmpty = true := by decide +kernel
  have accepted := Session.accepted?_eq_some.2 ⟨List.isEmpty_iff.1 quiet, rfl⟩
  have found : meetsLastCases (Session.start.program .script minusOneAndTrue) = true := by
    decide +kernel
  generalize program : Session.start.program .script minusOneAndTrue = stmts at found
  unfold meetsLastCases at found
  split at found
  · next sign operand joint right =>
      rw [Bool.and_eq_true, Bool.not_eq_true', Bool.not_eq_true'] at found
      obtain ⟨notBang, notOr⟩ := found
      have joins : Session.start.ComesTo 100 .script minusOneAndTrue
          ⟨99, .evaluate (.logical (.unary sign operand) joint right), Session.start.machine⟩ := by
        refine ⟨_, ?_, .single .expression⟩
        rw [program]
        exact .first
      have negates : Session.start.ComesTo 100 .script minusOneAndTrue
          ⟨98, .evaluate (.unary sign operand), Session.start.machine⟩ := by
        obtain ⟨first, starts, reaches⟩ := joins
        exact ⟨first, starts, reaches.tail .first⟩
      have knows := (trees_fit_evaluator.2 Session.start [] history 100 .script minusOneAndTrue).1
      have isAnd := (knows _ _ accepted joins).conjoins _ _ _ rfl notOr
      have isMinus := (knows _ _ accepted negates).negates _ _ rfl notBang
      exact ⟨_, sign, operand, joint, right, history, accepted, joins, notOr, isAnd, negates,
        notBang, isMinus⟩
  · cases found

end Lox
