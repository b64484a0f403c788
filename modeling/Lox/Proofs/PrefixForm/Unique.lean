/-
# The prefix form determines the tree

A tree of the grammar whose tokens are spelled as they should be is restored from its
prefix notation, with all statements in it, unless there is a string or an infinite
number among the tokens: a string stands in prefix notation without its quotes, so that
it may look like anything, and infinity looks like the name `inf`.  So two statements of
such texts with the same prefix form are the same, but for the lines of their tokens
(`prefixForm_unique`).
-/

import Lox.Proofs.PrefixForm.Restored
import Lox.Proofs.SourceForm.Scanning

namespace Lox

/-- A token is no string and no infinite number. -/
def Token.isPlain (token : Token) : Bool :=
  match token.kind with
  | .string _ => false
  | .number value => value.isFinite
  | _ => true

/-- A token that is read back from the prefix form of its tree. -/
structure Token.Legible (token : Token) : Prop where
  spelled : token.WellSpelled
  plain : token.isPlain = true

namespace Stmt

variable {expr : Expr Unit} {stmt : Stmt Unit} {stmts : List (Stmt Unit)}
  {methods : List (FunctionDecl Unit)} {name : Token}

/-- A statement and all statements in it are restored. -/
def RestoredThroughout (stmt : Stmt Unit) : Prop :=
  ∀ inner ∈ stmt.statements, inner.Restored

namespace RestoredThroughout

theorem self (throughout : stmt.RestoredThroughout) : stmt.Restored :=
  throughout stmt (mem_statements_self stmt)

/-- What holds of each statement of a row holds of all statements in them. -/
theorem row (each : ∀ stmt ∈ stmts, stmt.RestoredThroughout) :
    ∀ inner ∈ allStatements stmts, inner.Restored := by
  intro inner member
  obtain ⟨stmt, listed, member⟩ := mem_allStatements.1 member
  exact each stmt listed inner member

theorem expression (whole : expr.Restored) : RestoredThroughout (.expression expr) :=
  List.forall_mem_singleton.2 (.expression whole)

theorem block (each : ∀ stmt ∈ stmts, stmt.RestoredThroughout) :
    RestoredThroughout (.block stmts) :=
  List.forall_mem_cons.2 ⟨.block fun stmt member => (each stmt member).self, row each⟩

theorem whileLoop (test : expr.Restored) (body : stmt.RestoredThroughout) :
    RestoredThroughout (.whileLoop expr stmt) :=
  List.forall_mem_cons.2 ⟨.whileLoop test body.self, body⟩

end RestoredThroughout

end Stmt

namespace Grammar

/-- An operation is restored if its operands are. -/
theorem restored_node {level : Precedence} {terminal : Terminal} {operator : Token}
    {left right : Expr Unit} (listed : terminal ∈ operators level)
    (same : terminal.Matches operator) (before : left.Restored) (spelled : operator.WellSpelled)
    (behind : right.Restored) : (level.node left operator right).Restored := by
  have accepted : level.accepts operator = true := accepts_iff.2 ⟨terminal, listed, same⟩
  cases level with
  | disjunction => exact before.logical spelled (Token.JoinsConditions.kind (.inl accepted)) behind
  | conjunction => exact before.logical spelled (Token.JoinsConditions.kind (.inr accepted)) behind
  | _ =>
      have joins : operator.JoinsValues := ⟨_, by simp, by simp, accepted⟩
      exact before.binary spelled joins.kind behind

/-- An expression of legible tokens is restored. -/
theorem Expression.restored {tier : Tier} {tokens : List Token} {expr : Expr Unit}
    (derived : Expression tier tokens expr) (legible : ∀ token ∈ tokens, token.Legible) :
    expr.Restored := by
  induction derived with
  | assignVariable isName _ _ ih =>
      simp only [List.forall_mem_cons] at legible
      obtain ⟨name, -, inside⟩ := legible
      exact (ih inside).assign name.spelled isName
  | assignProperty _ _ isName _ _ ih ih' =>
      simp only [List.forall_mem_append, List.forall_mem_cons] at legible
      obtain ⟨owner, -, name, -, inside⟩ := legible
      exact (ih owner).set name.spelled isName (ih' inside)
  | unassigned _ ih => exact ih legible
  | operation _ listed same _ ih ih' =>
      simp only [List.forall_mem_append, List.forall_mem_cons] at legible
      obtain ⟨left, operator, right⟩ := legible
      exact restored_node listed same (ih left) operator.spelled (ih' right)
  | operand _ ih => exact ih legible
  | unary isOperator _ ih =>
      obtain ⟨operator, inside⟩ := List.forall_mem_cons.1 legible
      exact (ih inside).unary operator.spelled isOperator
  | noPrefix _ ih => exact ih legible
  | call _ _ separated _ _ isClosing ih ih' =>
      simp only [List.forall_mem_append, List.forall_mem_cons] at legible
      obtain ⟨callee, -, inside, closing, -⟩ := legible
      refine (ih callee).call closing.spelled isClosing ?_
      intro argument listed
      obtain ⟨row, among, rfl⟩ := List.mem_map.1 listed
      apply ih' row among
      intro token used
      exact inside token (separated.mem.1 row.1 (List.mem_map_of_mem among) token used)
  | property _ _ isName ih =>
      simp only [List.forall_mem_append, List.forall_mem_cons] at legible
      obtain ⟨owner, -, name, -⟩ := legible
      exact (ih owner).get name.spelled isName
  | primary _ ih => exact ih legible
  | @number token value same =>
      obtain ⟨spelled, plain⟩ := legible _ List.mem_cons_self
      have finite : value.isFinite = true := by simpa [Token.isPlain, same] using plain
      exact Expr.restored_number (NumberStyle.prefixForm.spelled_write spelled same finite)
  | @string token text same =>
      obtain ⟨-, plain⟩ := legible _ List.mem_cons_self
      simp [Token.isPlain, same] at plain
  | trueWord => exact Expr.restored_true
  | falseWord => exact Expr.restored_false
  | nilWord => exact Expr.restored_nil
  | thisWord same => exact Expr.restored_this (legible _ List.mem_cons_self).spelled same
  | reference same => exact Expr.restored_variable (legible _ List.mem_cons_self).spelled same
  | grouping _ _ _ ih =>
      simp only [List.forall_mem_append, List.forall_mem_cons] at legible
      exact (ih legible.2.1).grouping

theorem OptionalExpression.restored {tokens : List Token} {value : Option (Expr Unit)}
    (derived : OptionalExpression tokens value) (legible : ∀ token ∈ tokens, token.Legible) :
    ∀ expr ∈ value, expr.Restored := by
  cases derived with
  | absent =>
      intro expr found
      cases found
  | present whole =>
      intro expr found
      cases found
      exact whole.restored legible

theorem ExpressionStatement.restored {tokens : List Token} {stmt : Stmt Unit}
    (derived : ExpressionStatement tokens stmt) (legible : ∀ token ∈ tokens, token.Legible) :
    stmt.RestoredThroughout := by
  obtain ⟨whole, -⟩ := derived
  exact .expression (whole.restored (List.forall_mem_append.1 legible).1)

theorem VariableDeclaration.restored {tokens : List Token} {stmt : Stmt Unit}
    (derived : VariableDeclaration tokens stmt) (legible : ∀ token ∈ tokens, token.Legible) :
    stmt.RestoredThroughout := by
  cases derived with
  | bare _ isName _ =>
      simp only [List.forall_mem_cons] at legible
      exact List.forall_mem_singleton.2 (.varDecl legible.2.1.spelled isName)
  | initialized _ isName _ source _ =>
      simp only [List.forall_mem_cons, List.forall_mem_append] at legible
      obtain ⟨-, name, -, inside, -⟩ := legible
      exact List.forall_mem_singleton.2
        (.initialized name.spelled isName (source.restored inside))

theorem Initializer.restored {tokens : List Token} {initializer : Option (Stmt Unit)}
    (derived : Initializer tokens initializer) (legible : ∀ token ∈ tokens, token.Legible) :
    ∀ stmt ∈ initializer, stmt.RestoredThroughout := by
  cases derived with
  | absent =>
      intro stmt found
      cases found
  | declaration whole =>
      intro stmt found
      cases found
      exact whole.restored legible
  | expression whole =>
      intro stmt found
      cases found
      exact whole.restored legible

/-- A conditional loop is restored if its condition and its increment are, as far as they
were written, and its body. -/
theorem restored_roundsTree {condition increment : Option (Expr Unit)} {body : Stmt Unit}
    (guard : ∀ expr ∈ condition, expr.Restored) (step : ∀ expr ∈ increment, expr.Restored)
    (inside : body.RestoredThroughout) :
    (roundsTree condition increment body).RestoredThroughout := by
  -- The increment has become the last statement of a block.
  have rounds (expr : Expr Unit) (found : increment = some expr) :
      (Stmt.block [body, .expression expr]).RestoredThroughout := by
    apply Stmt.RestoredThroughout.block
    simp only [List.forall_mem_cons]
    exact ⟨inside, .expression (step expr found), List.forall_mem_nil _⟩
  cases condition with
  | none =>
      cases increment with
      | none => exact .whileLoop Expr.restored_true inside
      | some expr => exact .whileLoop Expr.restored_true (rounds expr rfl)
  | some test =>
      cases increment with
      | none => exact .whileLoop (guard test rfl) inside
      | some expr => exact .whileLoop (guard test rfl) (rounds expr rfl)

theorem restored_loopTree {initializer : Option (Stmt Unit)}
    {condition increment : Option (Expr Unit)} {body : Stmt Unit}
    (before : ∀ stmt ∈ initializer, stmt.RestoredThroughout)
    (guard : ∀ expr ∈ condition, expr.Restored) (step : ∀ expr ∈ increment, expr.Restored)
    (inside : body.RestoredThroughout) :
    (loopTree initializer condition increment body).RestoredThroughout := by
  have rounds := restored_roundsTree guard step inside
  cases initializer with
  | none => exact rounds
  | some stmt =>
      apply Stmt.RestoredThroughout.block
      simp only [List.forall_mem_cons]
      exact ⟨before stmt rfl, rounds, List.forall_mem_nil _⟩

/-- The tokens of each row are among those of all rows. -/
theorem legible_of_joined {α : Type} {rows : List (List Token × α)} {tokens : List Token}
    (joined : tokens = (rows.map Prod.fst).flatten)
    (legible : ∀ token ∈ tokens, token.Legible) :
    ∀ row ∈ rows, ∀ token ∈ row.1, token.Legible := by
  intro row among token used
  apply legible
  rw [joined]
  exact List.mem_flatten_of_mem (List.mem_map_of_mem among) used

/-- A statement of legible tokens is restored, and so are all statements in it. -/
theorem Statement.restored {form : Form} {tokens : List Token} {stmt : Stmt Unit}
    {dangling : Bool} (derived : Statement form tokens stmt dangling)
    (legible : ∀ token ∈ tokens, token.Legible) : stmt.RestoredThroughout := by
  have body {rows : List (List Token × Stmt Unit × Bool)} {tokens : List Token}
      (each : ∀ row ∈ rows, (∀ token ∈ row.1, token.Legible) → row.2.1.RestoredThroughout)
      (joined : tokens = (rows.map Prod.fst).flatten)
      (legible : ∀ token ∈ tokens, token.Legible) :
      ∀ stmt ∈ rows.map fun row => row.2.1, stmt.RestoredThroughout := by
    intro stmt listed
    obtain ⟨row, among, rfl⟩ := List.mem_map.1 listed
    exact each row among (legible_of_joined joined legible row among)
  induction derived with
  | @classDecl _ _ _ _ _ rows _ isName _ _ joined _ ih =>
      simp only [List.forall_mem_cons, List.forall_mem_append] at legible
      obtain ⟨-, name, -, inside, -⟩ := legible
      have each : ∀ row ∈ rows, Stmt.RestoredThroughout (.funDecl row.2) :=
        fun row among => ih row among (legible_of_joined joined inside row among)
      refine List.forall_mem_cons.2 ⟨.classDecl name.spelled isName ?_, ?_⟩
      · intro method listed
        obtain ⟨row, among, rfl⟩ := List.mem_map.1 listed
        exact (each row among).self
      · intro inner member
        obtain ⟨method, listed, member⟩ := Stmt.mem_methodStatements.1 member
        obtain ⟨row, among, rfl⟩ := List.mem_map.1 listed
        exact each row among inner (List.mem_cons_of_mem _ member)
  | funDecl _ _ ih => exact ih (List.forall_mem_cons.1 legible).2
  | varDecl whole => exact whole.restored legible
  | statement _ ih => exact ih legible
  | function isName _ separated areNames _ _ _ _ joined _ ih =>
      simp only [List.forall_mem_cons, List.forall_mem_append] at legible
      obtain ⟨name, -, names, -, -, inside, -⟩ := legible
      have body := body ih joined inside
      refine List.forall_mem_cons.2 ⟨.funDecl name.spelled isName ?_ areNames
        fun stmt listed => (body stmt listed).self, Stmt.RestoredThroughout.row body⟩
      intro parameter member
      have listed := separated.mem.1 [parameter] (List.mem_map_of_mem member)
      exact (names parameter (listed parameter List.mem_cons_self)).spelled
  | expression whole => exact whole.restored legible
  | loop _ _ before guard _ step _ _ ih =>
      simp only [List.forall_mem_cons, List.forall_mem_append] at legible
      obtain ⟨-, -, ⟨first, second⟩, -, third, -, inside⟩ := legible
      exact restored_loopTree (before.restored first) (guard.restored second)
        (step.restored third) (ih inside)
  | conditional _ _ test _ _ ih =>
      simp only [List.forall_mem_cons, List.forall_mem_append] at legible
      obtain ⟨-, -, guard, -, inside⟩ := legible
      exact List.forall_mem_cons.2
        ⟨.conditional (test.restored guard) (ih inside).self, ih inside⟩
  | alternative _ _ test _ _ _ _ ih ih' =>
      simp only [List.forall_mem_cons, List.forall_mem_append] at legible
      obtain ⟨-, -, guard, -, inside, -, others⟩ := legible
      exact List.forall_mem_cons.2
        ⟨.alternative (test.restored guard) (ih inside).self (ih' others).self,
          List.forall_mem_append.2 ⟨ih inside, ih' others⟩⟩
  | print _ whole _ =>
      simp only [List.forall_mem_cons, List.forall_mem_append] at legible
      exact List.forall_mem_singleton.2 (.print (whole.restored legible.2.1))
  | returning isReturn whole _ =>
      simp only [List.forall_mem_cons, List.forall_mem_append] at legible
      obtain ⟨opening, inside, -⟩ := legible
      cases whole with
      | absent => exact List.forall_mem_singleton.2 (.returning opening.spelled isReturn)
      | present whole =>
          exact List.forall_mem_singleton.2
            (.returningValue opening.spelled isReturn (whole.restored inside))
  | whileLoop _ _ test _ _ ih =>
      simp only [List.forall_mem_cons, List.forall_mem_append] at legible
      obtain ⟨-, -, guard, -, inside⟩ := legible
      exact .whileLoop (test.restored guard) (ih inside)
  | block _ _ joined _ ih =>
      simp only [List.forall_mem_cons, List.forall_mem_append] at legible
      exact .block (body ih joined legible.2.1)

theorem ProgramTree.restored {tokens : List Token} {statements : List (Stmt Unit)}
    (tree : ProgramTree tokens statements) (legible : ∀ token ∈ tokens, token.Legible) :
    ∀ inner ∈ Stmt.allStatements statements, inner.Restored := by
  obtain ⟨rows, each, joined, rfl⟩ := tree
  apply Stmt.RestoredThroughout.row
  intro stmt listed
  obtain ⟨row, among, rfl⟩ := List.mem_map.1 listed
  exact (each row among).restored (legible_of_joined joined legible row among)

end Grammar

/-! ## Texts -/

/-- A text without strings and without infinite numbers. -/
def IsPlain (source : String) : Prop :=
  ∀ token ∈ tokensOf source, token.isPlain = true

instance : DecidablePred IsPlain :=
  fun source => inferInstanceAs (Decidable (∀ token ∈ tokensOf source, token.isPlain = true))

/-- All statements of a plain text that is read without an error are restored. -/
theorem restored_of_ofSource {trailing : Bool} {source : String} (plain : IsPlain source)
    (quiet : (Program.ofSource trailing source).errors = []) :
    ∀ stmt ∈ Stmt.allStatements (Program.ofSource trailing source).statements, stmt.Restored := by
  have legible : ∀ token ∈ beforeEnd (tokensOf source), token.Legible := by
    intro token member
    exact ⟨wellSpelled_of_mem_tokensOf member, plain token ((List.takeWhile_sublist _).subset member)⟩
  have semicolon : Token.Legible ⟨.symbol .semicolon, ";", 1⟩ := ⟨.symbol .semicolon, rfl⟩
  obtain ⟨used, tree, rfl | rfl⟩ := Grammar.exists_programTree quiet
  · exact tree.restored legible
  · exact tree.restored (List.forall_mem_append.2 ⟨legible, List.forall_mem_singleton.2 semicolon⟩)

/-- The prefix form determines the tree.  Whatever two statements stand in two texts that
are read without an error, each in either mode, and have no strings and no infinite
numbers: if the prefix forms of the statements are the same, the statements are the same
but for the lines of their tokens. -/
theorem prefixForm_unique {trailing trailing' : Bool} {source other : String}
    (plain : IsPlain source) (plain' : IsPlain other)
    (quiet : (Program.ofSource trailing source).errors = [])
    (quiet' : (Program.ofSource trailing' other).errors = []) {first second : Stmt Unit}
    (stands : first ∈ Stmt.allStatements (Program.ofSource trailing source).statements)
    (stands' : second ∈ Stmt.allStatements (Program.ofSource trailing' other).statements)
    (same : first.prefixForm = second.prefixForm) :
    first.relined noLine = second.relined noLine :=
  (restored_of_ofSource plain quiet first stands).eq_of_prefixForm_eq
    (restored_of_ofSource plain' quiet' second stands') same

/-- A string stands without its quotes. -/
example : (Stmt.print (.literal (.string "nil")) : Stmt Unit).prefixForm =
    (Stmt.print (.literal .nil) : Stmt Unit).prefixForm :=
  rfl

/-- A loop with a condition as its only clause. -/
def guardedLoop : String :=
  "for (; a < 1;) -a;"

/-- The conditional loop that it stands for, on two lines and without its semicolon. -/
def conditionalLoop : String :=
  "while (a < 1.0)\n-a"

theorem guardedLoop_unique :
    (Program.ofSource false guardedLoop).statements.map Stmt.prefixForm =
        ["(while (< a 1.0) (; (- a)))"] ∧
      (Program.ofSource true conditionalLoop).statements.map Stmt.prefixForm =
        ["(while (< a 1.0) (; (- a)))"] ∧
      (Program.ofSource false guardedLoop).statements.map (Stmt.relined noLine) =
        (Program.ofSource true conditionalLoop).statements.map (Stmt.relined noLine) := by
  have forms : (Program.ofSource false guardedLoop).statements.map Stmt.prefixForm =
      ["(while (< a 1.0) (; (- a)))"] := by decide +kernel
  have forms' : (Program.ofSource true conditionalLoop).statements.map Stmt.prefixForm =
      ["(while (< a 1.0) (; (- a)))"] := by decide +kernel
  have plain : IsPlain guardedLoop ∧ IsPlain conditionalLoop := by decide +kernel
  have quiet : (Program.ofSource false guardedLoop).errors = [] := by decide +kernel
  have quiet' : (Program.ofSource true conditionalLoop).errors = [] := by decide +kernel
  have inside (stmt : Stmt Unit) : stmt ∈ Stmt.allStatements [stmt] :=
    List.mem_append_left _ (Stmt.mem_statements_self stmt)
  refine ⟨forms, forms', ?_⟩
  obtain ⟨first, only, form⟩ := List.map_eq_singleton_iff.1 forms
  obtain ⟨second, only', form'⟩ := List.map_eq_singleton_iff.1 forms'
  have stands : first ∈ Stmt.allStatements (Program.ofSource false guardedLoop).statements :=
    only ▸ inside first
  have stands' : second ∈ Stmt.allStatements (Program.ofSource true conditionalLoop).statements :=
    only' ▸ inside second
  have unique := prefixForm_unique plain.1 plain.2 quiet quiet' stands stands'
    (form.trans form'.symm)
  rw [only, only', List.map_singleton, List.map_singleton, unique]

end Lox
