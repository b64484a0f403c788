/-
# Loops with clauses

The reader knows a loop with clauses only as the blocks and the conditional loop that
it stands for.  Here such a loop is run directly (`Lexical.ForLoop.run`).  What stands
first in its parentheses runs once, in a scope that all rounds share.  In this scope
the condition is evaluated before each round, and the increment behind each round that
falls through; the names that the body declares are in force in the body only.

Both end in the same way, on the same memory (`Lexical.ForLoop.tree_below_run` and
`Lexical.ForLoop.run_below_tree`).  The blocks of the tree use up a part of the
allowance, but they leave nothing behind: a statement that declares nothing does the
same at every place with the same names in force (`Lexical.execute_place`).
-/

import Lox.Proofs.Grammar.Clean
import Lox.Proofs.Lexical.Allowance
import Lox.Proofs.Shape

namespace Lox

namespace Lexical

/-! ## Statements that declare nothing -/

/-- The value that a statement returns, if it does not fall through. -/
def Completion.value? : Completion → Option Value
  | normal _ => none
  | returned value => some value

/-- How a statement ends that declares nothing and stands here. -/
def Place.completion (place : Place) : Option Value → Completion
  | none => .normal place
  | some value => .returned value

/-- Runs a statement where these names are in force.  What it declares is in force in
the statement only. -/
def executeIn (allowance : Nat) (env : Env) (stmt : Stmt Unit) : Evaluation (Option Value) :=
  Completion.value? <$> execute allowance (.inside env) stmt

section Places

variable {allowed : Token → Prop} {place : Place}

theorem bind_place {α : Type} {computation : Evaluation α}
    {next next' : α → Evaluation Completion}
    (same : ∀ value, next value = place.completion <$> Completion.value? <$> next' value) :
    computation >>= next = place.completion <$> Completion.value? <$> (computation >>= next') := by
  rw [map_bind, map_bind]
  exact congrArg _ (funext same)

theorem block_place (n : Nat) (place : Place) (body : List (Stmt Unit)) :
    execute n place (.block body) = place.completion <$> executeIn n place.env (.block body) := by
  cases n with
  | zero => rfl
  | succ n =>
      refine bind_place fun completion => ?_
      cases completion <;> rfl

/-- If every round of a loop stands where the one before it does, then the whole loop
does the same wherever it stands. -/
theorem loop_place (n : Nat) (place : Place) (condition : Expr Unit) {body : Stmt Unit}
    (stays : ∀ m < n, ∀ place : Place,
      execute m place body = place.completion <$> executeIn m place.env body) :
    loop n place condition body =
      place.completion <$> Completion.value? <$> loop n (.inside place.env) condition body := by
  induction n with
  | zero => rfl
  | succ n ih =>
      refine bind_place fun value => ?_
      have again := ih fun m less => stays m (Nat.lt_succ_of_lt less)
      split
      · rw [stays n (Nat.lt_succ_self n) place, stays n (Nat.lt_succ_self n) (.inside place.env),
          bind_map_left, bind_map_left]
        refine bind_place fun returned => ?_
        cases returned with
        | none => exact again
        | some value => rfl
      · rfl

/-- A statement that declares nothing does the same at every place with the same names
in force, and what follows it stands where it stood itself. -/
theorem execute_place (n : Nat) (place : Place) {stmt : Stmt Unit}
    (guarded : stmt.Guarded allowed) :
    execute n place stmt = place.completion <$> executeIn n place.env stmt := by
  match n, stmt, guarded with
  | 0, _, _ => rfl
  | n + 1, .expression expr, _ | n + 1, .returning _ (some expr), _ =>
      exact bind_place fun _ => rfl
  | n + 1, .print expr, _ => exact bind_place fun value => bind_place fun _ => rfl
  | n + 1, .block body, _ => exact block_place (n + 1) place body
  | n + 1, .conditional condition onTrue none, guarded =>
      refine bind_place fun value => ?_
      have branch := execute_place n place guarded.1.2
      split
      · exact branch
      · rfl
  | n + 1, .conditional condition onTrue (some onFalse), guarded =>
      refine bind_place fun value => ?_
      have branch := execute_place n place guarded.1.2.1
      have other := execute_place n place guarded.1.2.2
      split
      · exact branch
      · exact other
  | n + 1, .whileLoop condition body, guarded =>
      exact loop_place n place condition fun m _ place => execute_place m place guarded.1.2
  | n + 1, .returning _ none, _ => rfl
  | n + 1, .varDecl _ _, guarded | n + 1, .funDecl _, guarded | n + 1, .classDecl _ _, guarded =>
      cases guarded.2
termination_by n

end Places

theorem executeIn_mono {n more : Nat} (env : Env) (stmt : Stmt Unit) (le : n ≤ more) :
    Below (executeIn n env stmt) (executeIn more env stmt) :=
  (execute_mono (.inside env) stmt le).map _

/-! ## Running a loop directly -/

/-- A loop with clauses: what stands in its parentheses, and its body, which is no
declaration. -/
structure ForLoop extends Clauses Unit where
  body : Stmt Unit
  guarded : body.Guarded fun _ => True

namespace ForLoop

/-- What the reader makes of a loop. -/
def tree (loop : ForLoop) : Stmt Unit :=
  loopWithClauses loop.initializer loop.condition loop.increment loop.body

/-- Whether there is another round: if the condition is true, or if there is none. -/
def goesOn (loop : ForLoop) (allowance : Nat) (env : Env) : Evaluation Bool :=
  match loop.condition with
  | some condition => do return (← evaluate allowance env condition).isTruthy
  | none => pure true

/-- A round: the body and, if this falls through, the increment.  Neither of them sees
the names that the other one declares. -/
def round (loop : ForLoop) (allowance : Nat) (env : Env) : Evaluation (Option Value) := do
  match ← executeIn allowance env loop.body with
  | some value => pure (some value)
  | none =>
    match loop.increment with
    | some increment => do
      let _ ← evaluate allowance env increment
      pure none
    | none => pure none

/-- Runs rounds as long as there is another one and none returns. -/
def rounds (loop : ForLoop) : Nat → Env → Evaluation (Option Value)
  | 0, _ => throw .exhausted
  | allowance + 1, env => do
    if ← loop.goesOn allowance env then
      match ← loop.round allowance env with
      | some value => pure (some value)
      | none => loop.rounds allowance env
    else pure none

/-- Runs a loop where these names are in force.  All rounds share the names that the
initializer declares. -/
def run (loop : ForLoop) (allowance : Nat) (env : Env) : Evaluation (Option Value) :=
  match loop.initializer with
  | some initializer => do
    match ← execute allowance (.inside env) initializer with
    | .normal behind => loop.rounds allowance behind.env
    | .returned value => pure (some value)
  | none => loop.rounds allowance env

/-! ## The tree of a loop -/

/-- The condition of the tree. -/
def guard (loop : ForLoop) : Expr Unit :=
  loop.condition.getD (.literal (.boolean true))

/-- The body of the tree. -/
def inner (loop : ForLoop) : Stmt Unit :=
  match loop.increment with
  | some increment => .block [loop.body, .expression increment]
  | none => loop.body

theorem tree_eq (loop : ForLoop) : loop.tree =
    match loop.initializer with
    | some initializer => .block [initializer, .whileLoop loop.guard loop.inner]
    | none => .whileLoop loop.guard loop.inner := by
  unfold tree inner loopWithClauses
  cases loop.initializer <;> cases loop.increment <;> rfl

variable {loop : ForLoop} {n more : Nat} {env : Env}

theorem inner_of_none (absent : loop.increment = none) : loop.inner = loop.body := by
  rw [inner, absent]

/-- A block with an increment is run as its two parts. -/
theorem executeIn_inner {increment : Expr Unit} (present : loop.increment = some increment) :
    executeIn (n + 4) env loop.inner = executeIn (n + 2) env loop.body >>= fun
      | some value => pure (some value)
      | none => evaluate n env increment >>= fun _ => pure none := by
  rw [inner, present, executeIn, execute, executeAll, execute_place _ _ loop.guarded,
    bind_map_left, bind_assoc, map_bind]
  refine bind_congr fun returned => ?_
  cases returned with
  | none =>
      simp only [Place.completion, executeAll, execute, bind_assoc, pure_bind, map_bind, map_pure,
        Completion.value?, Place.env]
  | some value => rfl

theorem round_of_none (absent : loop.increment = none) :
    loop.round n env = executeIn n env loop.body := by
  rw [round, absent, ← bind_pure (executeIn n env loop.body), bind_assoc]
  refine bind_congr fun returned => ?_
  cases returned <;> rfl

theorem inner_below_round (le : n + 4 ≤ more) :
    Below (executeIn n env loop.inner) (loop.round more env) := by
  cases present : loop.increment with
  | none =>
      rw [inner_of_none present, round_of_none present]
      exact executeIn_mono env loop.body (by omega)
  | some increment =>
      refine (executeIn_mono env loop.inner (Nat.le_add_right n 4)).trans ?_
      rw [executeIn_inner present, round, present]
      refine (executeIn_mono env loop.body (by omega)).bind fun returned => ?_
      cases returned with
      | none => exact (evaluate_mono env increment (by omega)).bind fun _ => .refl _
      | some value => exact .refl _

theorem round_below_inner : Below (loop.round n env) (executeIn (n + 4) env loop.inner) := by
  cases present : loop.increment with
  | none =>
      rw [inner_of_none present, round_of_none present]
      exact executeIn_mono env loop.body (by omega)
  | some increment =>
      rw [executeIn_inner present, round, present]
      refine (executeIn_mono env loop.body (by omega)).bind fun returned => ?_
      cases returned <;> exact .refl _

theorem inner_place (loop : ForLoop) (n : Nat) (place : Place) :
    execute n place loop.inner = place.completion <$> executeIn n place.env loop.inner := by
  unfold inner
  cases loop.increment with
  | none => exact execute_place n place loop.guarded
  | some increment => exact block_place n place _

/-- The conditional loop of the tree, round by round. -/
theorem loop_succ (loop : ForLoop) (n : Nat) (env : Env) :
    Completion.value? <$> Lexical.loop (n + 1) (.inside env) loop.guard loop.inner =
      ValueOf.isTruthy <$> evaluate n env loop.guard >>= fun goesOn =>
        if goesOn then
          executeIn n env loop.inner >>= fun
            | some value => pure (some value)
            | none => Completion.value? <$> Lexical.loop n (.inside env) loop.guard loop.inner
        else pure none := by
  rw [Lexical.loop, map_bind, bind_map_left]
  refine bind_congr fun value => ?_
  split
  · rw [inner_place, bind_map_left, map_bind]
    refine bind_congr fun returned => ?_
    cases returned <;> rfl
  · rfl

theorem guard_below_goesOn (le : n ≤ more) :
    Below (ValueOf.isTruthy <$> evaluate n env loop.guard) (loop.goesOn more env) := by
  unfold guard goesOn
  cases loop.condition with
  | none =>
      cases n with
      | zero => exact .throw _
      | succ n => exact .refl _
  | some condition => exact (evaluate_mono env condition le).bind fun _ => .refl _

theorem goesOn_below_guard (lt : n < more) :
    Below (loop.goesOn n env) (ValueOf.isTruthy <$> evaluate more env loop.guard) := by
  unfold guard goesOn
  obtain ⟨more, rfl⟩ := Nat.exists_eq_add_one_of_ne_zero (Nat.ne_zero_of_lt lt)
  cases loop.condition with
  | none => exact .refl _
  | some condition => exact (evaluate_mono env condition (Nat.le_of_lt lt)).bind fun _ => .refl _

/-- The rounds of the conditional loop are those of the loop itself. -/
theorem loop_below_rounds (n : Nat) : Below
    (Completion.value? <$> Lexical.loop n (.inside env) loop.guard loop.inner)
    (loop.rounds (n + 4) env) := by
  induction n with
  | zero => exact .throw _
  | succ n ih =>
      rw [loop_succ, Nat.add_right_comm, rounds]
      refine (guard_below_goesOn (Nat.le_add_right n 4)).bind fun goesOn => .ite ?_ (.refl _)
      refine (inner_below_round (Nat.le_refl _)).bind fun returned => ?_
      cases returned with
      | none => exact ih
      | some value => exact .refl _

theorem rounds_below_loop (n : Nat) : Below (loop.rounds n env)
    (Completion.value? <$> Lexical.loop (n + 4) (.inside env) loop.guard loop.inner) := by
  induction n with
  | zero => exact .throw _
  | succ n ih =>
      rw [Nat.add_right_comm, loop_succ, rounds]
      refine (goesOn_below_guard (Nat.lt_add_of_pos_right (by decide))).bind fun goesOn =>
        .ite ?_ (.refl _)
      refine round_below_inner.bind fun returned => ?_
      cases returned with
      | none => exact ih
      | some value => exact .refl _

/-! ## The tree and the loop -/

/-- A tree without an initializer is the conditional loop. -/
theorem tree_of_none (absent : loop.initializer = none) (n : Nat) (place : Place) :
    execute (n + 1) place loop.tree = place.completion <$>
      (Completion.value? <$> Lexical.loop n (.inside place.env) loop.guard loop.inner) := by
  rw [tree_eq, absent]
  exact loop_place n place loop.guard fun m _ place => loop.inner_place m place

/-- A tree with an initializer is this, and behind it the conditional loop. -/
theorem tree_of_some {initializer : Stmt Unit} (present : loop.initializer = some initializer)
    (n : Nat) (place : Place) :
    execute (n + 4) place loop.tree = place.completion <$>
      (execute (n + 2) (.inside place.env) initializer >>= fun
        | .normal behind =>
          Completion.value? <$> Lexical.loop n (.inside behind.env) loop.guard loop.inner
        | .returned value => pure (some value)) := by
  rw [tree_eq, present, execute, executeAll, bind_assoc, map_bind]
  refine bind_congr fun completion => ?_
  cases completion with
  | normal behind =>
      dsimp only
      have stays := loop_place n behind loop.guard fun m _ place => loop.inner_place m place
      rw [executeAll, execute, stays, bind_assoc, bind_map_left, map_eq_pure_bind]
      refine bind_congr fun returned => ?_
      cases returned <;> rfl
  | returned value => rfl

/-- What the tree of a loop does, the loop does too. -/
theorem tree_below_run (loop : ForLoop) (n : Nat) (place : Place) :
    Below (execute n place loop.tree) (place.completion <$> loop.run (n + 8) place.env) := by
  unfold run
  cases present : loop.initializer with
  | none =>
      refine (execute_mono place loop.tree (Nat.le_add_right n 5)).trans ?_
      rw [tree_of_none present (n + 4)]
      exact (loop_below_rounds (n + 4)).map _
  | some initializer =>
      refine (execute_mono place loop.tree (Nat.le_add_right n 8)).trans ?_
      rw [tree_of_some present (n + 4)]
      have before := execute_mono (.inside place.env) initializer (Nat.le_add_right (n + 6) 2)
      refine (before.bind fun completion => ?_).map _
      cases completion with
      | normal behind => exact loop_below_rounds (n + 4)
      | returned value => exact .refl _

/-- What a loop does, its tree does too. -/
theorem run_below_tree (loop : ForLoop) (n : Nat) (place : Place) :
    Below (place.completion <$> loop.run n place.env) (execute (n + 8) place loop.tree) := by
  unfold run
  cases present : loop.initializer with
  | none =>
      refine Below.trans ?_ (execute_mono place loop.tree (by omega : n + 5 ≤ n + 8))
      rw [tree_of_none present (n + 4)]
      exact (rounds_below_loop n).map _
  | some initializer =>
      rw [tree_of_some present (n + 4)]
      have before := execute_mono (.inside place.env) initializer (Nat.le_add_right n 6)
      refine (before.bind fun completion => ?_).map _
      cases completion with
      | normal behind => exact rounds_below_loop n
      | returned value => exact .refl _

/-! ## What is read as a loop -/

/-- A loop is what is read in front of these tokens: its clauses, and behind them its
body. -/
def IsRead (loop : ForLoop) (trailing : Bool) (tokens rest : List Token) : Prop :=
  ∃ middle, (loopClauses trailing tokens).Clean loop.toClauses middle ∧
    (statement trailing middle).Clean loop.body rest

/-- What is read behind `for` is the tree of the loop that stands there. -/
theorem exists_of_statement {trailing : Bool} {opening : Token} {tokens rest : List Token}
    {stmt : Stmt Unit} (isFor : opening.kind = .keyword .forWord)
    (read : (statement trailing (opening :: tokens)).Clean stmt rest) :
    ∃ loop : ForLoop, loop.IsRead trailing tokens rest ∧ stmt = loop.tree := by
  rw [statement, isFor] at read
  dsimp only at read
  rw [Reader.clean_behind, Reader.clean_andThen] at read
  obtain ⟨clauses, middle, _, head, behind⟩ := read
  obtain ⟨body, inside, rfl⟩ := Reader.clean_map.1 behind
  have guarded : body.Guarded fun _ => True := by
    have given : (statement trailing middle).Gives (fun _ => True) (Stmt.Guarded fun _ => True) :=
      gives_statement trailing fun _ _ => trivial
    obtain ⟨_, same⟩ := inside
    rw [same] at given
    exact given.1
  exact ⟨⟨clauses, body, guarded⟩, ⟨middle, head, inside⟩, rfl⟩

end ForLoop

end Lexical

end Lox
