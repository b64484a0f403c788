/-
# A larger allowance changes nothing

A computation is below another one if it ends as that one does, wherever its own
allowance is not used up first (`Lexical.Below`).  Every function of the lexical
evaluator is below itself with a larger allowance, so what ends at all ends in the
same way for every allowance that is large enough.

Two computations that are below each other, up to some more allowance, therefore have
the same outcomes.  This is how programs of different shape are compared: one of them
may need a few steps more for the same work.  The order asks nothing of the state that
a computation works on.
-/

import Lox.Proofs.Lexical

namespace Lox.Lexical

variable {σ α β : Type}

/-- What was run has used up its allowance. -/
def Exhausted {σ : Type} (result : EStateM.Result Interrupt σ α) : Prop :=
  ∃ later, result = .error .exhausted later

/-- What is done with a value uses up no allowance. -/
theorem Exhausted.of_map {f : α → β} {computation : EStateM Interrupt σ α} {state : σ}
    (exhausted : Exhausted ((f <$> computation) state)) : Exhausted (computation state) := by
  obtain ⟨later, ran⟩ := exhausted
  have mapped : EStateM.map f computation state = .error .exhausted later := ran
  rw [EStateM.map] at mapped
  cases found : computation state with
  | ok value after =>
      rw [found] at mapped
      cases mapped
  | error interrupt after =>
      rw [found] at mapped
      cases mapped
      exact ⟨later, rfl⟩

/-- The first computation ends as the second one does, unless its allowance is used up. -/
def Below (first second : EStateM Interrupt σ α) : Prop :=
  ∀ state, Exhausted (first state) ∨ first state = second state

namespace Below

variable {first second third : EStateM Interrupt σ α} {next next' : α → EStateM Interrupt σ β}

theorem refl (computation : EStateM Interrupt σ α) : Below computation computation :=
  fun _ => .inr rfl

theorem trans (before : Below first second) (behind : Below second third) :
    Below first third := by
  intro state
  rcases before state with exhausted | same
  · exact .inl exhausted
  · rw [same]
    exact behind state

theorem throw (computation : EStateM Interrupt σ α) :
    Below (MonadExcept.throw Interrupt.exhausted) computation :=
  fun state => .inl ⟨state, rfl⟩

/-- A computation behind another one is reached only if that one has finished, and then
from the same state. -/
theorem bind (before : Below first second) (behind : ∀ value, Below (next value) (next' value)) :
    Below (first >>= next) (second >>= next') := by
  intro state
  show Exhausted (EStateM.bind first next state) ∨
    EStateM.bind first next state = EStateM.bind second next' state
  unfold EStateM.bind
  rcases before state with ⟨later, exhausted⟩ | same
  · rw [exhausted]
    exact .inl ⟨later, rfl⟩
  · rw [same]
    cases second state with
    | ok value later => exact behind value later
    | error interrupt later => exact .inr rfl

theorem map (below : Below first second) (f : α → β) : Below (f <$> first) (f <$> second) := by
  rw [map_eq_pure_bind, map_eq_pure_bind]
  exact below.bind fun _ => .refl _

theorem ite {condition : Prop} [Decidable condition] {other other' : EStateM Interrupt σ α}
    (onTrue : Below first second) (onFalse : Below other other') :
    Below (if condition then first else other) (if condition then second else other') := by
  split
  · exact onTrue
  · exact onFalse

/-- What is below itself with one step more is so with any number of them. -/
theorem of_le {computation : Nat → EStateM Interrupt σ α}
    (step : ∀ allowance, Below (computation allowance) (computation (allowance + 1)))
    {allowance more : Nat} (le : allowance ≤ more) :
    Below (computation allowance) (computation more) := by
  induction le with
  | refl => exact .refl _
  | step _ ih => exact ih.trans (step _)

end Below

mutual

theorem evaluate_below (n : Nat) (env : Env) (expr : Expr Unit) :
    Below (evaluate n env expr) (evaluate (n + 1) env expr) := by
  match n, expr with
  | 0, _ => exact .throw _
  | n + 1, .literal _ | n + 1, .variable _ _ | n + 1, .this _ _ => exact .refl _
  | n + 1, .grouping inner => exact evaluate_below n env inner
  | n + 1, .unary operator operand =>
      exact (evaluate_below n env operand).bind fun _ => .refl _
  | n + 1, .binary left operator right =>
      exact (evaluate_below n env left).bind fun _ =>
        (evaluate_below n env right).bind fun _ => .refl _
  | n + 1, .logical left operator right =>
      exact (evaluate_below n env left).bind fun _ =>
        .ite (.refl _) (evaluate_below n env right)
  | n + 1, .assign _ name value =>
      exact (evaluate_below n env value).bind fun _ => .refl _
  | n + 1, .call callee paren arguments =>
      exact (evaluate_below n env callee).bind fun value =>
        (evaluateAll_below n env arguments).bind fun values => call_below n value paren values
  | n + 1, .get object name =>
      exact (evaluate_below n env object).bind fun _ => .refl _
  | n + 1, .set object name value =>
      refine (evaluate_below n env object).bind fun owner => ?_
      cases owner with
      | instanceValue owner => exact (evaluate_below n env value).bind fun _ => .refl _
      | _ => exact .refl _

theorem evaluateAll_below (n : Nat) (env : Env) (exprs : List (Expr Unit)) :
    Below (evaluateAll n env exprs) (evaluateAll (n + 1) env exprs) := by
  match n, exprs with
  | 0, _ => exact .throw _
  | n + 1, [] => exact .refl _
  | n + 1, first :: rest =>
      exact (evaluate_below n env first).bind fun _ =>
        (evaluateAll_below n env rest).bind fun _ => .refl _

theorem call_below (n : Nat) (callee : Value) (paren : Token) (arguments : List Value) :
    Below (call n callee paren arguments) (call (n + 1) callee paren arguments) := by
  match n, callee with
  | 0, _ => exact .throw _
  | n + 1, .function closure =>
      exact (Below.refl _).bind fun _ => (Below.refl _).bind fun env =>
        (executeAll_below n (.inside env) closure.declaration.body).bind fun _ => .refl _
  | n + 1, .native .clock => exact .refl _
  | n + 1, .classValue _ | n + 1, .nil | n + 1, .boolean _ | n + 1, .number _
  | n + 1, .string _ | n + 1, .instanceValue _ => exact .refl _

theorem execute_below (n : Nat) (place : Place) (stmt : Stmt Unit) :
    Below (execute n place stmt) (execute (n + 1) place stmt) := by
  match n, stmt with
  | 0, _ => exact .throw _
  | n + 1, .expression expr | n + 1, .print expr | n + 1, .returning _ (some expr) =>
      exact (evaluate_below n place.env expr).bind fun _ => .refl _
  | n + 1, .varDecl _ none | n + 1, .funDecl _ | n + 1, .returning _ none
  | n + 1, .classDecl _ _ => exact .refl _
  | n + 1, .varDecl name (some initializer) =>
      exact (Below.refl _).bind fun behind =>
        (evaluate_below n behind.env initializer).bind fun _ => .refl _
  | n + 1, .block body =>
      exact (executeAll_below n (.inside place.env) body).bind fun _ => .refl _
  | n + 1, .conditional condition onTrue none =>
      exact (evaluate_below n place.env condition).bind fun _ =>
        .ite (execute_below n place onTrue) (.refl _)
  | n + 1, .conditional condition onTrue (some onFalse) =>
      exact (evaluate_below n place.env condition).bind fun _ =>
        .ite (execute_below n place onTrue) (execute_below n place onFalse)
  | n + 1, .whileLoop condition body => exact loop_below n place condition body

theorem loop_below (n : Nat) (place : Place) (condition : Expr Unit) (body : Stmt Unit) :
    Below (loop n place condition body) (loop (n + 1) place condition body) := by
  match n with
  | 0 => exact .throw _
  | n + 1 =>
      refine (evaluate_below n place.env condition).bind fun _ => .ite ?_ (.refl _)
      refine (execute_below n place body).bind fun completion => ?_
      cases completion with
      | normal behind => exact loop_below n behind condition body
      | returned value => exact .refl _

theorem executeAll_below (n : Nat) (place : Place) (stmts : List (Stmt Unit)) :
    Below (executeAll n place stmts) (executeAll (n + 1) place stmts) := by
  match n, stmts with
  | 0, _ => exact .throw _
  | n + 1, [] => exact .refl _
  | n + 1, first :: rest =>
      refine (execute_below n place first).bind fun completion => ?_
      cases completion with
      | normal behind => exact executeAll_below n behind rest
      | returned value => exact .refl _

end

variable {n more : Nat}

/-- An expression that was evaluated is evaluated in the same way with a larger
allowance. -/
theorem evaluate_mono (env : Env) (expr : Expr Unit) (le : n ≤ more) :
    Below (evaluate n env expr) (evaluate more env expr) :=
  .of_le (fun allowance => evaluate_below allowance env expr) le

/-- A statement that was run is run in the same way with a larger allowance. -/
theorem execute_mono (place : Place) (stmt : Stmt Unit) (le : n ≤ more) :
    Below (execute n place stmt) (execute more place stmt) :=
  .of_le (fun allowance => execute_below allowance place stmt) le

end Lox.Lexical
