/-
# The shape of the trees that are read

Whatever tokens are read, and even if faults are noticed on the way, the trees
that come of it have a certain shape: operators are operators of their kind,
names are names that the program chose, and what a condition guards is never
itself a declaration.  All their tokens are among those that were read.

The proofs follow the functions that read.  They need no clean reading: what is
behind a phrase is among the tokens in front of it, also where a reading was
stopped.
-/

import Lox.Proofs.Reading

namespace Lox

variable {ρ : Type}

/-- A name that the program chose. -/
def Token.Names (allowed : Token → Prop) (name : Token) : Prop :=
  allowed name ∧ name.kind = .identifier

/-- An operator whose tree is that of a binary operation. -/
def Token.JoinsValues (operator : Token) : Prop :=
  ∃ level : Precedence, level ≠ .disjunction ∧ level ≠ .conjunction ∧
    level.accepts operator = true

/-- An operator whose tree is that of a logical operation. -/
def Token.JoinsConditions (operator : Token) : Prop :=
  Precedence.disjunction.accepts operator = true ∨ Precedence.conjunction.accepts operator = true

namespace Expr

mutual

/-- The tokens of an expression are allowed ones and of the kinds that belong
in their places. -/
def Shaped (allowed : Token → Prop) : Expr ρ → Prop
  | literal _ => True
  | grouping inner => inner.Shaped allowed
  | unary operator operand =>
    allowed operator ∧ isPrefixOperator operator = true ∧ operand.Shaped allowed
  | binary left operator right =>
    allowed operator ∧ operator.JoinsValues ∧ left.Shaped allowed ∧ right.Shaped allowed
  | logical left operator right =>
    allowed operator ∧ operator.JoinsConditions ∧ left.Shaped allowed ∧ right.Shaped allowed
  | .variable _ name => name.Names allowed
  | assign _ name value => name.Names allowed ∧ value.Shaped allowed
  | call callee paren arguments =>
    allowed paren ∧ callee.Shaped allowed ∧ AllShaped allowed arguments
  | get object name => object.Shaped allowed ∧ name.Names allowed
  | set object name value =>
    object.Shaped allowed ∧ name.Names allowed ∧ value.Shaped allowed
  | this _ keyword => allowed keyword ∧ keyword.kind = .keyword .thisWord

/-- All expressions of a row are shaped. -/
def AllShaped (allowed : Token → Prop) : List (Expr ρ) → Prop
  | [] => True
  | expr :: rest => expr.Shaped allowed ∧ AllShaped allowed rest

end

end Expr

namespace Stmt

/-- Whether a statement declares a name where it stands. -/
def isDeclaration : Stmt ρ → Bool
  | varDecl .. => true
  | funDecl _ => true
  | classDecl .. => true
  | _ => false

mutual

/-- The expressions of a statement are shaped, and what it guards is shaped and
no declaration. -/
def Shaped (allowed : Token → Prop) : Stmt ρ → Prop
  | expression expr => expr.Shaped allowed
  | print expr => expr.Shaped allowed
  | varDecl name none => name.Names allowed
  | varDecl name (some initializer) => name.Names allowed ∧ initializer.Shaped allowed
  | block body => AllShaped allowed body
  | conditional condition onTrue none =>
    condition.Shaped allowed ∧ onTrue.Shaped allowed ∧ onTrue.isDeclaration = false
  | conditional condition onTrue (some onFalse) =>
    condition.Shaped allowed ∧ (onTrue.Shaped allowed ∧ onTrue.isDeclaration = false) ∧
      onFalse.Shaped allowed ∧ onFalse.isDeclaration = false
  | whileLoop condition body =>
    condition.Shaped allowed ∧ body.Shaped allowed ∧ body.isDeclaration = false
  | funDecl declaration => FunctionShaped allowed declaration
  | returning _ none => True
  | returning _ (some expr) => expr.Shaped allowed
  | classDecl name methods => name.Names allowed ∧ MethodsShaped allowed methods

/-- A function and its parameters have names, and its body is shaped. -/
def FunctionShaped (allowed : Token → Prop) : FunctionDecl ρ → Prop
  | .mk name parameters body =>
    name.Names allowed ∧ (∀ parameter ∈ parameters, parameter.Names allowed) ∧
      AllShaped allowed body

/-- All methods of a class are shaped. -/
def MethodsShaped (allowed : Token → Prop) : List (FunctionDecl ρ) → Prop
  | [] => True
  | method :: rest => FunctionShaped allowed method ∧ MethodsShaped allowed rest

/-- All statements of a row are shaped. -/
def AllShaped (allowed : Token → Prop) : List (Stmt ρ) → Prop
  | [] => True
  | stmt :: rest => stmt.Shaped allowed ∧ AllShaped allowed rest

end

theorem allShaped_append {allowed : Token → Prop} {first second : List (Stmt ρ)}
    (before : AllShaped allowed first) (behind : AllShaped allowed second) :
    AllShaped allowed (first ++ second) := by
  induction first with
  | nil => exact behind
  | cons stmt first ih => exact ⟨before.1, ih before.2⟩

end Stmt

namespace Reader

variable {α β : Type} {n : Nat} {allowed : Token → Prop}

/-- What was read has a property, and all tokens behind it are allowed. -/
def Gives (allowed : Token → Prop) (property : α → Prop) : Reader Id α n → Prop
  | done value _ rest _ => property value ∧ ∀ token ∈ rest, allowed token
  | stuck _ _ rest _ => ∀ token ∈ rest, allowed token

variable {P : α → Prop} {Q : β → Prop} {reading : Reader Id α n} {tokens : List Token}

theorem gives_still {value : α} (holds : P value) (all : ∀ token ∈ tokens, allowed token) :
    (still value tokens).Gives allowed P :=
  ⟨holds, all⟩

theorem gives_stopped {fault : SyntaxFault} (all : ∀ token ∈ tokens, allowed token) :
    (stopped fault tokens).Gives allowed P :=
  all

theorem Gives.imp {P' : α → Prop} (gives : reading.Gives allowed P)
    (holds : ∀ value, P value → P' value) : reading.Gives allowed P' := by
  cases reading with
  | done value => exact ⟨holds value gives.1, gives.2⟩
  | stuck => exact gives

theorem Gives.behind (gives : reading.Gives allowed P) : reading.behind.Gives allowed P := by
  cases reading <;> exact gives

theorem Gives.noticing {earlier : List Notice} (gives : reading.Gives allowed P) :
    (reading.noticing earlier).Gives allowed P := by
  cases reading <;> exact gives

theorem Gives.map {f : α → β} (gives : reading.Gives allowed P)
    (holds : ∀ value, P value → Q (f value)) : (reading.map f).Gives allowed Q := by
  cases reading with
  | done value => exact ⟨holds value gives.1, gives.2⟩
  | stuck => exact gives

theorem Gives.andPerhaps
    {next : α → (rest : List Token) → rest.length < n → Reader Id β (rest.length + 1)}
    (gives : reading.Gives allowed P)
    (further : ∀ value rest shorter, P value → (∀ token ∈ rest, allowed token) →
      (next value rest shorter).Gives allowed Q) : (reading.andPerhaps next).Gives allowed Q := by
  cases reading with
  | done value notices rest shorter =>
      have more := further value rest shorter gives.1 gives.2
      cases found : next value rest shorter with
      | done =>
          rw [found] at more
          rwa [andPerhaps_of_done found]
      | stuck =>
          rw [found] at more
          rwa [andPerhaps_of_stuck found]
  | stuck => exact gives

theorem Gives.andThen {next : α → (rest : List Token) → rest.length < n → Reader Id β rest.length}
    (gives : reading.Gives allowed P)
    (further : ∀ value rest shorter, P value → (∀ token ∈ rest, allowed token) →
      (next value rest shorter).Gives allowed Q) : (reading.andThen next).Gives allowed Q :=
  gives.andPerhaps fun value rest shorter holds all =>
    (further value rest shorter holds all).behind

end Reader

theorem gives_expect {allowed : Token → Prop} {wanted : Token → Bool} {fault : SyntaxFault}
    {tokens : List Token} (all : ∀ token ∈ tokens, allowed token) :
    (expect wanted fault tokens).Gives allowed fun token =>
      allowed token ∧ wanted token = true := by
  cases tokens with
  | nil => exact all
  | cons token rest =>
      rw [expect]
      split
      · next same =>
          exact ⟨⟨all token List.mem_cons_self, same⟩, (List.forall_mem_cons.1 all).2⟩
      · exact all

/-- Where a name is expected, a name is read. -/
theorem gives_expect_name {allowed : Token → Prop} {fault : SyntaxFault} {tokens : List Token}
    (all : ∀ token ∈ tokens, allowed token) :
    (expect Token.isIdentifier fault tokens).Gives allowed (Token.Names allowed) := by
  apply (gives_expect all).imp
  rintro token ⟨isAllowed, same⟩
  exact ⟨isAllowed, by simpa [Token.isIdentifier] using same⟩

variable {allowed : Token → Prop}

theorem shaped_of_atom? {token : Token} {expr : Expr Unit} (isAllowed : allowed token)
    (found : atom? token = some expr) : expr.Shaped allowed := by
  unfold atom? at found
  split at found
  case h_6 same =>
    cases found
    exact ⟨isAllowed, same⟩
  case h_7 same =>
    cases found
    exact ⟨isAllowed, same⟩
  case h_8 => cases found
  all_goals
    cases found
    trivial

/-- Whether its left side fits or not, an assignment is shaped. -/
theorem shaped_assigned {target value : Expr Unit} {equals : Token}
    (left : target.Shaped allowed) (right : value.Shaped allowed) :
    (assigned target equals value).1.Shaped allowed := by
  unfold assigned
  split
  · exact ⟨left, right⟩
  · exact ⟨left.1, left.2, right⟩
  · exact left

/-- An operation of a level is shaped. -/
theorem shaped_node {level : Precedence} {left right : Expr Unit} {operator : Token}
    (isAllowed : allowed operator) (accepted : level.accepts operator = true)
    (first : left.Shaped allowed) (second : right.Shaped allowed) :
    (level.node left operator right).Shaped allowed := by
  cases level with
  | disjunction => exact ⟨isAllowed, .inl accepted, first, second⟩
  | conjunction => exact ⟨isAllowed, .inr accepted, first, second⟩
  | equality => exact ⟨isAllowed, ⟨.equality, nofun, nofun, accepted⟩, first, second⟩
  | comparison => exact ⟨isAllowed, ⟨.comparison, nofun, nofun, accepted⟩, first, second⟩
  | term => exact ⟨isAllowed, ⟨.term, nofun, nofun, accepted⟩, first, second⟩
  | factor => exact ⟨isAllowed, ⟨.factor, nofun, nofun, accepted⟩, first, second⟩

mutual

theorem gives_expression {tokens : List Token} (all : ∀ token ∈ tokens, allowed token) :
    (expression tokens).Gives allowed (Expr.Shaped allowed) := by
  rw [expression]
  exact (gives_operation .disjunction all).andPerhaps fun target rest _ shaped all =>
    gives_assignment shaped all
termination_by 18 * tokens.length + 15
decreasing_by
  · simp only [Precedence.height]
    omega
  · omega

theorem gives_assignment {target : Expr Unit} {tokens : List Token}
    (shaped : target.Shaped allowed) (all : ∀ token ∈ tokens, allowed token) :
    (assignment target tokens).Gives allowed (Expr.Shaped allowed) := by
  match tokens, all with
  | [], all =>
      rw [assignment]
      exact Reader.gives_still shaped all
  | first :: rest, all =>
      rw [assignment]
      split
      · apply Reader.Gives.behind
        apply Reader.Gives.behind
        have given := gives_expression (List.forall_mem_cons.1 all).2
        exact given.andPerhaps fun value rest _ right all =>
          (Reader.gives_still (shaped_assigned shaped right) all).noticing
      · exact Reader.gives_still shaped all
termination_by 18 * tokens.length
decreasing_by
  simp only [List.length_cons]
  omega

theorem gives_operation (level : Precedence) {tokens : List Token}
    (all : ∀ token ∈ tokens, allowed token) :
    (operation level tokens).Gives allowed (Expr.Shaped allowed) := by
  rw [operation]
  exact (gives_operand level all).andPerhaps fun left rest _ shaped all =>
    gives_operations level shaped all
termination_by 18 * tokens.length + 2 * level.height + 2
decreasing_by all_goals omega

theorem gives_operand (level : Precedence) {tokens : List Token}
    (all : ∀ token ∈ tokens, allowed token) :
    (operand level tokens).Gives allowed (Expr.Shaped allowed) := by
  rw [operand]
  split
  · next next tighter =>
      have := Precedence.height_tighter? tighter
      exact gives_operation next all
  · have := level.height_pos
    exact gives_prefixed all
termination_by 18 * tokens.length + 2 * level.height + 1
decreasing_by all_goals omega

theorem gives_operations (level : Precedence) {left : Expr Unit} {tokens : List Token}
    (shaped : left.Shaped allowed) (all : ∀ token ∈ tokens, allowed token) :
    (operations level left tokens).Gives allowed (Expr.Shaped allowed) := by
  match tokens, all with
  | [], all =>
      rw [operations]
      exact Reader.gives_still shaped all
  | first :: rest, all =>
      rw [operations]
      split
      · next accepted =>
          have := level.height_le
          obtain ⟨isAllowed, others⟩ := List.forall_mem_cons.1 all
          apply Reader.Gives.behind
          apply Reader.Gives.behind
          exact (gives_operand level others).andPerhaps fun right behind shorter second all =>
            gives_operations level (shaped_node isAllowed accepted shaped second) all
      · exact Reader.gives_still shaped all
termination_by 18 * tokens.length
decreasing_by
  · simp only [List.length_cons]
    omega
  · simp only [List.length_cons]
    omega

theorem gives_prefixed {tokens : List Token} (all : ∀ token ∈ tokens, allowed token) :
    (prefixed tokens).Gives allowed (Expr.Shaped allowed) := by
  match tokens, all with
  | [], all =>
      rw [prefixed]
      exact Reader.gives_stopped all
  | first :: rest, all =>
      rw [prefixed]
      obtain ⟨isAllowed, others⟩ := List.forall_mem_cons.1 all
      split
      · next isOperator =>
          apply Reader.Gives.behind
          exact (gives_prefixed others).map fun operand shaped => ⟨isAllowed, isOperator, shaped⟩
      · exact (gives_primary isAllowed others).andPerhaps fun callee rest _ shaped all =>
          gives_suffixes shaped all
termination_by 18 * tokens.length + 2
decreasing_by all_goals (simp only [List.length_cons]; omega)

theorem gives_suffixes {callee : Expr Unit} {tokens : List Token}
    (shaped : callee.Shaped allowed) (all : ∀ token ∈ tokens, allowed token) :
    (suffixes callee tokens).Gives allowed (Expr.Shaped allowed) := by
  match tokens, all with
  | [], all =>
      rw [suffixes]
      exact Reader.gives_still shaped all
  | first :: rest, all =>
      rw [suffixes]
      have others := (List.forall_mem_cons.1 all).2
      split
      · apply Reader.Gives.behind
        apply Reader.Gives.behind
        exact (gives_argumentList others).andPerhaps fun given behind shorter holds all =>
          gives_suffixes ⟨holds.2, shaped, holds.1⟩ all
      · split
        · apply Reader.Gives.behind
          apply Reader.Gives.behind
          exact (gives_expect_name others).andPerhaps fun name behind shorter isName all =>
            gives_suffixes ⟨shaped, isName⟩ all
        · exact Reader.gives_still shaped all
termination_by 18 * tokens.length
decreasing_by all_goals (simp only [List.length_cons]; omega)

theorem gives_argumentList {tokens : List Token} (all : ∀ token ∈ tokens, allowed token) :
    (argumentList tokens).Gives allowed fun given =>
      Expr.AllShaped allowed given.1 ∧ allowed given.2 := by
  match tokens, all with
  | [], all =>
      rw [argumentList]
      exact Reader.gives_stopped all
  | first :: rest, all =>
      rw [argumentList]
      obtain ⟨isAllowed, others⟩ := List.forall_mem_cons.1 all
      split
      · exact Reader.gives_still ⟨trivial, isAllowed⟩ others
      · exact (gives_arguments 0 all).andThen fun arguments rest _ shaped all =>
          (gives_expect all).map fun paren given => ⟨shaped, given.1⟩
termination_by 18 * tokens.length + 17
decreasing_by omega

theorem gives_arguments (count : Nat) {tokens : List Token}
    (all : ∀ token ∈ tokens, allowed token) :
    (arguments count tokens).Gives allowed (Expr.AllShaped allowed) := by
  rw [arguments]
  exact (gives_expression all).noticing.andPerhaps fun first rest _ shaped all =>
    (gives_furtherArguments (count + 1) all).map fun others more => ⟨shaped, more⟩
termination_by 18 * tokens.length + 16
decreasing_by all_goals omega

theorem gives_furtherArguments (count : Nat) {tokens : List Token}
    (all : ∀ token ∈ tokens, allowed token) :
    (furtherArguments count tokens).Gives allowed (Expr.AllShaped allowed) := by
  match tokens, all with
  | [], all =>
      rw [furtherArguments]
      exact Reader.gives_still trivial all
  | first :: rest, all =>
      rw [furtherArguments]
      split
      · exact (gives_arguments count (List.forall_mem_cons.1 all).2).behind.behind
      · exact Reader.gives_still trivial all
termination_by 18 * tokens.length
decreasing_by
  simp only [List.length_cons]
  omega

theorem gives_primary {first : Token} {tokens : List Token} (isAllowed : allowed first)
    (all : ∀ token ∈ tokens, allowed token) :
    (primary first tokens).Gives allowed (Expr.Shaped allowed) := by
  rw [primary]
  split
  · next found => exact Reader.gives_still (shaped_of_atom? isAllowed found) all
  · split
    · apply Reader.Gives.behind
      exact (gives_expression all).andThen fun inner rest _ shaped all =>
        (gives_expect all).map fun _ _ => shaped
    · exact Reader.gives_stopped (List.forall_mem_cons.2 ⟨isAllowed, all⟩)
termination_by 18 * tokens.length + 16
decreasing_by omega

end

/-! ## Statements -/

theorem mem_of_mem_skipAfter {previous token : Token} {tokens : List Token}
    (member : token ∈ skipAfter previous tokens) : token ∈ tokens := by
  induction tokens generalizing previous with
  | nil => exact member
  | cons first rest ih =>
      rw [skipAfter] at member
      split at member
      · exact member
      · exact List.mem_cons_of_mem _ (ih member)

theorem mem_of_mem_resume {token : Token} {tokens : List Token}
    (member : token ∈ resume tokens) : token ∈ tokens := by
  cases tokens with
  | nil => exact member
  | cons first rest => exact List.mem_cons_of_mem _ (mem_of_mem_skipAfter member)

/-- What a branch of a conditional and the body of a loop are. -/
def Stmt.Guarded (allowed : Token → Prop) (stmt : Stmt ρ) : Prop :=
  stmt.Shaped allowed ∧ stmt.isDeclaration = false

/-- What stands in the place of an expression that may be missing is shaped. -/
def Expr.MaybeShaped (allowed : Token → Prop) (expr : Option (Expr ρ)) : Prop :=
  ∀ found, expr = some found → found.Shaped allowed

/-- What stands in the place of a statement that may be missing is shaped. -/
def Stmt.MaybeShaped (allowed : Token → Prop) (stmt : Option (Stmt ρ)) : Prop :=
  ∀ found, stmt = some found → found.Shaped allowed

theorem Expr.maybeShaped_none (allowed : Token → Prop) :
    Expr.MaybeShaped allowed (none : Option (Expr ρ)) := by
  rintro _ ⟨⟩

theorem Stmt.maybeShaped_none (allowed : Token → Prop) :
    Stmt.MaybeShaped allowed (none : Option (Stmt ρ)) := by
  rintro _ ⟨⟩

namespace Declarer

/-- What was read as a declaration is shaped, and all tokens behind it are
allowed. -/
def Gives {n : Nat} (allowed : Token → Prop) (declared : Declarer Id Unit n) : Prop :=
  Stmt.MaybeShaped allowed declared.statement ∧ ∀ token ∈ declared.rest, allowed token

theorem gives_ofReader {n : Nat} {reading : Reader Id (Stmt Unit) (n + 1)}
    (gives : reading.Gives allowed (Stmt.Shaped allowed)) : (ofReader reading).Gives allowed := by
  cases reading with
  | done value =>
      refine ⟨?_, gives.2⟩
      rintro _ ⟨⟩
      exact gives.1
  | stuck =>
      exact ⟨Stmt.maybeShaped_none allowed,
        fun token member => gives token (mem_of_mem_resume member)⟩

theorem Gives.andThen {n : Nat} {declared : Declarer Id Unit n}
    {next : (rest : List Token) → rest.length < n → Reader Id (List (Stmt Unit)) rest.length}
    (gives : declared.Gives allowed)
    (further : ∀ rest shorter, (∀ token ∈ rest, allowed token) →
      (next rest shorter).Gives allowed (Stmt.AllShaped allowed)) :
    (declared.andThen next).Gives allowed (Stmt.AllShaped allowed) := by
  have more := further declared.rest declared.shorter gives.2
  cases found : next declared.rest declared.shorter with
  | done =>
      rw [found] at more
      rw [andThen_of_done found]
      refine ⟨Stmt.allShaped_append ?_ more.1, more.2⟩
      cases same : declared.statement with
      | none => trivial
      | some stmt => exact ⟨gives.1 stmt same, trivial⟩
  | stuck =>
      rw [found] at more
      rwa [andThen_of_stuck found]

end Declarer

theorem shaped_loopWithClauses {initializer : Option (Stmt Unit)}
    {condition increment : Option (Expr Unit)} {body : Stmt Unit}
    (before : Stmt.MaybeShaped allowed initializer) (test : Expr.MaybeShaped allowed condition)
    (step : Expr.MaybeShaped allowed increment) (inside : body.Guarded allowed) :
    (loopWithClauses initializer condition increment body).Guarded allowed := by
  have guard : (condition.getD (.literal (.boolean true))).Shaped allowed := by
    cases condition with
    | none => trivial
    | some found => exact test found rfl
  cases initializer with
  | none =>
      cases increment with
      | none => exact ⟨⟨guard, inside⟩, rfl⟩
      | some expr => exact ⟨⟨guard, ⟨inside.1, step expr rfl, trivial⟩, rfl⟩, rfl⟩
  | some stmt =>
      cases increment with
      | none => exact ⟨⟨before stmt rfl, ⟨guard, inside⟩, trivial⟩, rfl⟩
      | some expr =>
          exact ⟨⟨before stmt rfl, ⟨guard, ⟨inside.1, step expr rfl, trivial⟩, rfl⟩, trivial⟩, rfl⟩

section Simple

variable {tokens : List Token} (all : ∀ token ∈ tokens, allowed token)

include all

theorem gives_expressionUnless (symbol : Symbol) :
    (expressionUnless symbol tokens).Gives allowed (Expr.MaybeShaped allowed) := by
  have whole := (gives_expression all).map (f := some) (Q := Expr.MaybeShaped allowed)
    fun expr shaped found same => by
      cases same
      exact shaped
  cases tokens with
  | nil => exact whole.behind
  | cons first rest =>
      rw [expressionUnless]
      split
      · exact Reader.gives_still (Expr.maybeShaped_none allowed) all
      · exact whole.behind

theorem gives_initialValue :
    (initialValue tokens).Gives allowed (Expr.MaybeShaped allowed) := by
  cases tokens with
  | nil => exact all
  | cons first rest =>
      rw [initialValue]
      split
      · apply Reader.Gives.behind
        refine (gives_expression (List.forall_mem_cons.1 all).2).andThen
          fun value rest _ shaped all => (gives_expect all).map fun _ _ => ?_
        rintro _ ⟨⟩
        exact shaped
      · exact (gives_expect all).map fun _ _ => Expr.maybeShaped_none allowed

theorem gives_varDeclaration :
    (varDeclaration tokens).Gives allowed (Stmt.Shaped allowed) := by
  refine (gives_expect_name all).andThen fun name rest _ isName all =>
    (gives_initialValue all).map fun value shaped => ?_
  cases value with
  | none => exact isName
  | some initializer => exact ⟨isName, shaped initializer rfl⟩

theorem gives_printStatement :
    (printStatement tokens).Gives allowed (Stmt.Guarded allowed) :=
  (gives_expression all).andThen fun _ _ _ shaped all =>
    (gives_expect all).map fun _ _ => ⟨shaped, rfl⟩

theorem gives_returnStatement (keyword : Token) :
    (returnStatement keyword tokens).Gives allowed (Stmt.Guarded allowed) := by
  refine (gives_expressionUnless all .semicolon).andThen fun value rest _ shaped all =>
    (gives_expect all).map fun _ _ => ⟨?_, rfl⟩
  cases value with
  | none => trivial
  | some expr => exact shaped expr rfl

theorem gives_expressionStatement (trailing : Bool) :
    (expressionStatement trailing tokens).Gives allowed (Stmt.Guarded allowed) := by
  refine (gives_expression all).andPerhaps fun expr rest _ shaped all => ?_
  split
  · exact Reader.gives_still ⟨shaped, rfl⟩ all
  · exact ((gives_expect all).map fun _ _ => ⟨shaped, rfl⟩).behind

theorem gives_initializerClause (trailing : Bool) :
    (initializerClause trailing tokens).Gives allowed (Stmt.MaybeShaped allowed) := by
  have some_shaped (stmt : Stmt Unit) (shaped : stmt.Shaped allowed) :
      Stmt.MaybeShaped allowed (some stmt) := by
    rintro _ ⟨⟩
    exact shaped
  cases tokens with
  | nil =>
      exact (gives_expressionStatement all trailing).map fun stmt guarded =>
        some_shaped stmt guarded.1
  | cons first rest =>
      have others := (List.forall_mem_cons.1 all).2
      rw [initializerClause]
      split
      · exact Reader.gives_still (Stmt.maybeShaped_none allowed) others
      · split
        · exact ((gives_varDeclaration others).map some_shaped).behind
        · exact (gives_expressionStatement all trailing).map fun stmt guarded =>
            some_shaped stmt guarded.1

theorem gives_loopClauses (trailing : Bool) :
    (loopClauses trailing tokens).Gives allowed fun clauses =>
      Stmt.MaybeShaped allowed clauses.initializer ∧
        Expr.MaybeShaped allowed clauses.condition ∧
          Expr.MaybeShaped allowed clauses.increment :=
  (gives_expect all).andThen fun _ _ _ _ all =>
    (gives_initializerClause all trailing).andPerhaps fun _ _ _ before all =>
      (gives_expressionUnless all .semicolon).andThen fun _ _ _ test all =>
        (gives_expect all).andPerhaps fun _ _ _ _ all =>
          (gives_expressionUnless all .rightParen).andThen fun _ _ _ step all =>
            (gives_expect all).map fun _ _ => ⟨before, test, step⟩

theorem gives_condition (opening closing : SyntaxFault) :
    (condition opening closing tokens).Gives allowed (Expr.Shaped allowed) :=
  (gives_expect all).andThen fun _ _ _ _ all =>
    (gives_expression all).andThen fun _ _ _ shaped all =>
      (gives_expect all).map fun _ _ => shaped

end Simple

mutual

theorem gives_parameters (count : Nat) {tokens : List Token}
    (all : ∀ token ∈ tokens, allowed token) :
    (parameters count tokens).Gives allowed fun names => ∀ name ∈ names, name.Names allowed := by
  rw [parameters]
  exact (gives_expect_name all).noticing.andPerhaps fun first rest _ isName all =>
    (gives_furtherParameters (count + 1) all).map fun others areNames =>
      List.forall_mem_cons.2 ⟨isName, areNames⟩
termination_by tokens.length

theorem gives_furtherParameters (count : Nat) {tokens : List Token}
    (all : ∀ token ∈ tokens, allowed token) :
    (furtherParameters count tokens).Gives allowed fun names =>
      ∀ name ∈ names, name.Names allowed := by
  match tokens, all with
  | [], all =>
      rw [furtherParameters]
      exact Reader.gives_still nofun all
  | first :: rest, all =>
      rw [furtherParameters]
      split
      · exact (gives_parameters count (List.forall_mem_cons.1 all).2).behind.behind
      · exact Reader.gives_still nofun all
termination_by tokens.length

end

theorem gives_parameterList {tokens : List Token} (all : ∀ token ∈ tokens, allowed token) :
    (parameterList tokens).Gives allowed fun names => ∀ name ∈ names, name.Names allowed := by
  cases tokens with
  | nil => exact all
  | cons first rest =>
      rw [parameterList]
      split
      · exact Reader.gives_still nofun (List.forall_mem_cons.1 all).2
      · exact (gives_parameters 0 all).andThen fun names rest _ areNames all =>
          (gives_expect all).map fun _ _ => areNames

theorem gives_functionHead (kind : FunctionKind) {tokens : List Token}
    (all : ∀ token ∈ tokens, allowed token) :
    (functionHead kind tokens).Gives allowed fun head =>
      head.1.Names allowed ∧ ∀ name ∈ head.2, name.Names allowed :=
  (gives_expect_name all).andThen fun _ _ _ isName all =>
    (gives_expect all).andThen fun _ _ _ _ all =>
      (gives_parameterList all).andThen fun _ _ _ areNames all =>
        (gives_expect all).map fun _ _ => ⟨isName, areNames⟩

mutual

theorem gives_declaration (trailing : Bool) {first : Token} {tokens : List Token}
    (isAllowed : allowed first) (all : ∀ token ∈ tokens, allowed token) :
    (declaration trailing first tokens).Gives allowed := by
  rw [declaration]
  apply Declarer.gives_ofReader
  split
  · exact (gives_classDeclaration trailing all).behind
  · apply Reader.Gives.behind
    exact (gives_function trailing .function all).map fun _ shaped => shaped
  · exact (gives_varDeclaration all).behind
  · exact (gives_statement trailing (List.forall_mem_cons.2 ⟨isAllowed, all⟩)).imp
      fun _ => And.left
termination_by 3 * tokens.length + 4
decreasing_by
  · omega
  · omega
  · simp only [List.length_cons]
    omega

theorem gives_statement (trailing : Bool) {tokens : List Token}
    (all : ∀ token ∈ tokens, allowed token) :
    (statement trailing tokens).Gives allowed (Stmt.Guarded allowed) := by
  match tokens, all with
  | [], all =>
      rw [statement]
      exact gives_expressionStatement all trailing
  | first :: rest, all =>
      have others := (List.forall_mem_cons.1 all).2
      rw [statement]
      split
      · apply Reader.Gives.behind
        exact (gives_loopClauses others trailing).andThen fun clauses rest _ shaped all =>
          (gives_statement trailing all).map fun body guarded =>
            shaped_loopWithClauses shaped.1 shaped.2.1 shaped.2.2 guarded
      · apply Reader.Gives.behind
        refine (gives_condition others _ _).andThen fun condition rest _ test all =>
          (gives_statement trailing all).andPerhaps fun onTrue rest _ guarded all =>
            (gives_alternative trailing all).map fun onFalse other => ⟨?_, rfl⟩
        cases onFalse with
        | none => exact ⟨test, guarded⟩
        | some stmt => exact ⟨test, guarded, other stmt rfl⟩
      · apply Reader.Gives.behind
        exact (gives_condition others _ _).andThen fun condition rest _ test all =>
          (gives_statement trailing all).map fun body guarded => ⟨⟨test, guarded⟩, rfl⟩
      · exact gives_returnStatement others first
      · exact ((gives_block trailing others).map fun body shaped => ⟨shaped, rfl⟩).behind
      · exact (gives_printStatement others).behind
      · exact gives_expressionStatement all trailing
termination_by 3 * tokens.length
decreasing_by all_goals (simp only [List.length_cons]; omega)

theorem gives_alternative (trailing : Bool) {tokens : List Token}
    (all : ∀ token ∈ tokens, allowed token) :
    (alternative trailing tokens).Gives allowed fun other =>
      ∀ stmt, other = some stmt → stmt.Guarded allowed := by
  match tokens, all with
  | [], all =>
      rw [alternative]
      exact Reader.gives_still nofun all
  | first :: rest, all =>
      rw [alternative]
      split
      · apply Reader.Gives.behind
        apply Reader.Gives.behind
        refine (gives_statement trailing (List.forall_mem_cons.1 all).2).map ?_
        rintro stmt guarded _ ⟨⟩
        exact guarded
      · exact Reader.gives_still nofun all
termination_by 3 * tokens.length
decreasing_by
  simp only [List.length_cons]
  omega

theorem gives_block (trailing : Bool) {tokens : List Token}
    (all : ∀ token ∈ tokens, allowed token) :
    (block trailing tokens).Gives allowed (Stmt.AllShaped allowed) := by
  match tokens, all with
  | [], all =>
      rw [block]
      exact Reader.gives_stopped all
  | first :: rest, all =>
      rw [block]
      obtain ⟨isAllowed, others⟩ := List.forall_mem_cons.1 all
      split
      · exact Reader.gives_still trivial others
      · exact (gives_declaration trailing isAllowed others).andThen fun rest _ all =>
          gives_block trailing all
termination_by 3 * tokens.length + 2
decreasing_by all_goals (simp only [List.length_cons] at *; omega)

theorem gives_function (trailing : Bool) (kind : FunctionKind) {tokens : List Token}
    (all : ∀ token ∈ tokens, allowed token) :
    (function trailing kind tokens).Gives allowed (Stmt.FunctionShaped allowed) := by
  rw [function]
  exact (gives_functionHead kind all).andThen fun head rest _ named all =>
    (gives_block trailing all).map fun body shaped => ⟨named.1, named.2, shaped⟩
termination_by 3 * tokens.length
decreasing_by omega

theorem gives_methods (trailing : Bool) {tokens : List Token}
    (all : ∀ token ∈ tokens, allowed token) :
    (methods trailing tokens).Gives allowed (Stmt.MethodsShaped allowed) := by
  match tokens, all with
  | [], all =>
      rw [methods]
      exact Reader.gives_still trivial all
  | first :: rest, all =>
      rw [methods]
      split
      · exact Reader.gives_still trivial all
      · apply Reader.Gives.behind
        exact (gives_function trailing .method all).andPerhaps fun method rest _ shaped all =>
          (gives_methods trailing all).map fun others more => ⟨shaped, more⟩
termination_by 3 * tokens.length + 1
decreasing_by
  · omega
  · simp only [List.length_cons] at *
    omega

theorem gives_classDeclaration (trailing : Bool) {tokens : List Token}
    (all : ∀ token ∈ tokens, allowed token) :
    (classDeclaration trailing tokens).Gives allowed (Stmt.Shaped allowed) := by
  rw [classDeclaration]
  exact (gives_expect_name all).andThen fun name rest _ isName all =>
    (gives_expect all).andPerhaps fun _ rest _ _ all =>
      (gives_methods trailing all).andThen fun methods rest _ shaped all =>
        (gives_expect all).map fun _ _ => ⟨isName, shaped⟩
termination_by 3 * tokens.length
decreasing_by omega

end

theorem shaped_declarations (trailing : Bool) {tokens : List Token}
    (all : ∀ token ∈ tokens, allowed token) :
    Stmt.AllShaped allowed (declarations trailing tokens).1 := by
  match tokens, all with
  | [], _ =>
      rw [declarations_nil]
      trivial
  | first :: rest, all =>
      obtain ⟨isAllowed, others⟩ := List.forall_mem_cons.1 all
      have given := gives_declaration trailing isAllowed others
      have shorter := (declaration trailing first rest).shorter
      have more := shaped_declarations trailing given.2
      rw [declarations_cons]
      apply Stmt.allShaped_append _ more
      cases found : (declaration trailing first rest).statement with
      | none => trivial
      | some stmt => exact ⟨given.1 stmt found, trivial⟩
termination_by tokens.length

/-- The statements that are read from tokens are shaped, and all their tokens
are among those in front of the first end mark. -/
theorem shaped_ofTokens (trailing : Bool) {tokens : List Token}
    (all : ∀ token ∈ beforeEnd tokens, allowed token) :
    Stmt.AllShaped allowed (Program.ofTokens trailing tokens).statements :=
  shaped_declarations trailing all

end Lox
