/-
# Derivations and trees

A row of tokens is derived from a production of the table exactly if it has a
tree.  From a tree to a derivation this is an induction over the tree; the one
thing to see is that repetitions can also be extended at their end, because
operations and calls group to the left.

In the other direction every phrase is given a meaning, which says for the
parts of a row what their trees are, and each production is shown to keep to
it.  This is where the ambiguity of `else` is settled: an `else` behind a
statement that could take it is moved inwards to the nearest conditional.
-/

import Lox.Proofs.Grammar
import Lox.Proofs.Grammar.Soundness.Statement

namespace Lox.Grammar

open Phrase

/-- The production of a tier. -/
def Tier.name : Tier → Nonterminal
  | .assignment => .assignment
  | .operation .disjunction => .logicOr
  | .operation .conjunction => .logicAnd
  | .operation .equality => .equality
  | .operation .comparison => .comparison
  | .operation .term => .term
  | .operation .factor => .factor
  | .unary => .unary
  | .call => .call
  | .primary => .primary

/-! ## From trees to derivations -/

namespace Derives

variable {first second phrase : Phrase} {rest : List Phrase} {left right tokens : List Token}

theorem row_nil : Derives (row []) [] := .empty

theorem row_cons (before : Derives first left) (behind : Derives (row rest) right) :
    Derives (row (first :: rest)) (left ++ right) := .both before behind

theorem one (wanted : Terminal) {token : Token} (same : wanted.Matches token) :
    Derives (.terminal wanted) [token] := .terminal same

theorem row_token (wanted : Terminal) {token : Token} (same : wanted.Matches token)
    (behind : Derives (row rest) right) :
    Derives (row (.terminal wanted :: rest)) (token :: right) :=
  row_cons (.terminal same) behind

/-- An assignment is an expression. -/
theorem expression (whole : Derives (.part .assignment) tokens) :
    Derives (.part .expression) tokens := .part whole

theorem row_last (only : Derives phrase tokens) : Derives (row [phrase]) tokens := by
  rw [← List.append_nil tokens]
  exact row_cons only row_nil

/-- A row may start with something that is left out. -/
theorem row_absent (behind : Derives (row rest) tokens) :
    Derives (row (.optional phrase :: rest)) tokens :=
  row_cons .absent behind

/-- A repetition can be extended at its end. -/
theorem many_append (again : Derives (.many phrase) left) (once : Derives phrase right) :
    Derives (.many phrase) (left ++ right) := by
  generalize same : Phrase.many phrase = repeated at again
  induction again with
  | manyEnd =>
      cases same
      rw [List.nil_append, ← List.append_nil right]
      exact .manyMore once .manyEnd
  | manyMore first _ _ ih =>
      cases same
      rw [List.append_assoc]
      exact .manyMore first (ih rfl)
  | _ => cases same

/-- Something followed by a repetition can be extended at its end. -/
theorem row_many_append (whole : Derives (row [first, .many phrase]) left)
    (once : Derives phrase right) : Derives (row [first, .many phrase]) (left ++ right) := by
  generalize same : row [first, .many phrase] = all at whole
  cases whole with
  | both before behind =>
      cases same
      generalize same : row [.many phrase] = all at behind
      cases behind with
      | both repeated last =>
          cases same
          cases last
          rw [List.append_nil, List.append_assoc]
          exact row_cons before (row_last (repeated.many_append once))
      | _ => cases same
  | _ => cases same

/-- What is derived from the name of a production is derived from its right side. -/
theorem body {name : Nonterminal} (whole : Derives (.part name) tokens) :
    Derives (production name) tokens := by
  cases whole with
  | part body => exact body

theorem many_of_forall {α : Type} {rows : List α} {f : α → List Token}
    (each : ∀ row ∈ rows, Derives phrase (f row)) :
    Derives (.many phrase) (rows.map f).flatten := by
  induction rows with
  | nil => exact .manyEnd
  | cons row rows ih =>
      rw [List.map_cons, List.flatten_cons]
      exact .manyMore (each row List.mem_cons_self)
        (ih fun other member => each other (List.mem_cons_of_mem _ member))

theorem oneOf_first {others : List Phrase} (chosen : Derives phrase tokens) :
    Derives (oneOf phrase others) tokens := by
  cases others with
  | nil => exact chosen
  | cons => exact .eitherFirst chosen

theorem oneOf_other {others : List Phrase} (phrase : Phrase) (listed : phrase ∈ others)
    (chosen : Derives phrase tokens) : Derives (oneOf first others) tokens := by
  induction others generalizing first with
  | nil => cases listed
  | cons second others ih =>
      apply Derives.eitherSecond
      rcases List.mem_cons.1 listed with rfl | listed
      · exact oneOf_first chosen
      · exact ih listed

/-- Rows with commas between them are a first row and a bounded repetition. -/
theorem upTo_of_separated {others : List (List Token)} {most : Nat}
    (separated : Separated (left :: others) tokens) (each : ∀ row ∈ others, Derives phrase row)
    (few : others.length ≤ most) :
    ∃ behind, tokens = left ++ behind ∧
      Derives (.upTo most (row [sign .comma, phrase])) behind := by
  induction others generalizing left tokens most with
  | nil =>
      cases separated
      exact ⟨[], (List.append_nil _).symm, .upToEnd⟩
  | cons second others ih =>
      obtain - | - | @⟨_, _, rest, _, comma, isComma, more⟩ := separated
      obtain ⟨fewer, rfl⟩ : ∃ fewer, most = fewer + 1 :=
        Nat.exists_eq_add_one.2 (Nat.lt_of_lt_of_le (Nat.succ_pos _) few)
      obtain ⟨behind, rfl, derived⟩ :=
        ih more (fun row member => each row (List.mem_cons_of_mem _ member))
          (Nat.le_of_succ_le_succ few)
      refine ⟨_, rfl, ?_⟩
      have once : Derives (row [sign .comma, phrase]) (comma :: second) :=
        row_token _ isComma (row_last (each second List.mem_cons_self))
      exact .upToMore once derived

end Derives

/-- A level is a chain of its operands. -/
theorem production_operation (level : Precedence) :
    ∃ first others, operators level = first :: others ∧
      production (Tier.operation level).name = chain (operandTier level).name first others := by
  cases level <;> exact ⟨_, _, rfl, rfl⟩

/-- An expression is derived from the production of its tier. -/
theorem Expression.derives {tier : Tier} {tokens : List Token} {expr : Expr Unit}
    (whole : Expression tier tokens expr) : Derives (.part tier.name) tokens := by
  induction whole with
  | assignVariable isName isEqual _ ih =>
      refine .part (Derives.oneOf_first ?_)
      exact Derives.row_absent (Derives.row_token _ isName (Derives.row_token _ isEqual
        (Derives.row_last ih)))
  | assignProperty _ isDot isName isEqual _ ih ih' =>
      have owner := Derives.row_cons ih (Derives.row_token (.symbol .dot) isDot .row_nil)
      have whole : Derives (production Tier.assignment.name) _ :=
        Derives.oneOf_first (Derives.row_cons (.present owner)
          (Derives.row_token .identifier isName
            (Derives.row_token (.symbol .equal) isEqual (Derives.row_last ih'))))
      refine .part ?_
      simpa only [List.append_assoc, List.cons_append, List.nil_append] using whole
  | unassigned _ ih => exact .part (Derives.oneOf_other _ (List.mem_singleton_self _) ih)
  | @operation level before behind left right operator terminal _ listed same _ ih ih' =>
      obtain ⟨first, others, all, table⟩ := production_operation level
      have body := ih.body
      rw [table] at body
      have choice : Derives (oneOf (.terminal first) (others.map .terminal)) [operator] := by
        rw [all] at listed
        rcases List.mem_cons.1 listed with rfl | listed
        · exact Derives.oneOf_first (.terminal same)
        · exact Derives.oneOf_other _ (List.mem_map_of_mem listed) (.terminal same)
      refine .part ?_
      rw [table]
      exact Derives.row_many_append body (Derives.row_cons choice (Derives.row_last ih'))
  | @operand level tokens expr _ ih =>
      obtain ⟨first, others, _, table⟩ := production_operation level
      refine .part ?_
      rw [table, ← List.append_nil tokens]
      exact Derives.row_cons ih (Derives.row_last .manyEnd)
  | unary isOperator _ ih =>
      refine .part (Derives.oneOf_first ?_)
      rcases isOperator with isBang | isMinus
      · exact Derives.row_cons
          (Derives.oneOf_first (Derives.one (.symbol .bang) isBang))
          (Derives.row_last ih)
      · exact Derives.row_cons (Derives.oneOf_other _ (List.mem_singleton_self _)
          (Derives.one (.symbol .minus) isMinus)) (Derives.row_last ih)
  | noPrefix _ ih => exact .part (Derives.oneOf_other _ (List.mem_singleton_self _) ih)
  | @call before inside callee opening closing rows _ isOpening separated _ few isClosing ih ih' =>
      have arguments : Derives (.optional (.part .arguments)) inside := by
        cases rows with
        | nil =>
            cases separated
            exact .absent
        | cons row rows =>
            have each : ∀ tokens ∈ rows.map Prod.fst, Derives (.part .expression) tokens := by
              intro tokens listed
              obtain ⟨other, member, rfl⟩ := List.mem_map.1 listed
              exact .part (ih' other (List.mem_cons_of_mem _ member))
            have fewer : (rows.map Prod.fst).length ≤ 7 := by
              rw [List.length_map]
              exact Nat.le_of_succ_le_succ few
            obtain ⟨behind, rfl, others⟩ := Derives.upTo_of_separated separated each fewer
            exact .present (.part (Derives.row_cons (.part (ih' row List.mem_cons_self))
              (Derives.row_last others)))
      have suffix := Derives.row_token (.symbol .leftParen) isOpening
        (Derives.row_cons arguments
          (Derives.row_token (.symbol .rightParen) isClosing .row_nil))
      exact .part (Derives.row_many_append ih.body (Derives.oneOf_first suffix))
  | @property before object dot name _ isDot isName ih =>
      have suffix := Derives.row_token (.symbol .dot) isDot
        (Derives.row_token .identifier isName .row_nil)
      exact .part (Derives.row_many_append ih.body
        (Derives.oneOf_other _ (List.mem_singleton_self _) suffix))
  | @primary tokens expr _ ih =>
      refine .part ?_
      rw [← List.append_nil tokens]
      exact Derives.row_cons ih (Derives.row_last .manyEnd)
  | number same => exact .part (Derives.oneOf_first (.terminal ⟨_, same⟩))
  | string same => exact .part (Derives.oneOf_other _ (by simp) (Derives.one .string ⟨_, same⟩))
  | trueWord same =>
      exact .part (Derives.oneOf_other _ (by simp [word]) (Derives.one (.keyword .trueWord) same))
  | falseWord same =>
      exact .part (Derives.oneOf_other _ (by simp [word]) (Derives.one (.keyword .falseWord) same))
  | nilWord same =>
      exact .part (Derives.oneOf_other _ (by simp [word]) (Derives.one (.keyword .nilWord) same))
  | thisWord same =>
      exact .part (Derives.oneOf_other _ (by simp [word]) (Derives.one (.keyword .thisWord) same))
  | reference same =>
      exact .part (Derives.oneOf_other _ (by simp [name]) (Derives.one .identifier same))
  | grouping isOpening _ isClosing ih =>
      have inside := Derives.row_token (.symbol .leftParen) isOpening
        (Derives.row_cons ih.expression
          (Derives.row_token (.symbol .rightParen) isClosing .row_nil))
      exact .part (Derives.oneOf_other _ (by simp [sign]) inside)

theorem OptionalExpression.derives {tokens : List Token} {value : Option (Expr Unit)}
    (whole : OptionalExpression tokens value) :
    Derives (.optional (.part .expression)) tokens := by
  cases whole with
  | absent => exact .absent
  | present whole => exact .present (.part whole.derives)

theorem ExpressionStatement.derives {tokens : List Token} {stmt : Stmt Unit}
    (whole : ExpressionStatement tokens stmt) : Derives (.part .exprStmt) tokens := by
  obtain ⟨whole, isSemicolon⟩ := whole
  exact .part (Derives.row_cons (.part whole.derives) (Derives.row_token _ isSemicolon .row_nil))

theorem VariableDeclaration.derives {tokens : List Token} {stmt : Stmt Unit}
    (whole : VariableDeclaration tokens stmt) : Derives (.part .varDecl) tokens := by
  cases whole with
  | bare isVar isName isSemicolon =>
      exact .part (Derives.row_token _ isVar (Derives.row_token _ isName
        (Derives.row_absent (Derives.row_token _ isSemicolon .row_nil))))
  | initialized isVar isName isEqual source isSemicolon =>
      have value := Derives.row_token (.symbol .equal) isEqual
        (Derives.row_last source.derives.expression)
      exact .part (Derives.row_token _ isVar (Derives.row_token _ isName
        (Derives.row_cons (.present value) (Derives.row_token _ isSemicolon .row_nil))))

theorem Initializer.derives {tokens : List Token} {initializer : Option (Stmt Unit)}
    (whole : Initializer tokens initializer) :
    Derives (oneOf (.part .varDecl) [.part .exprStmt, sign .semicolon]) tokens := by
  cases whole with
  | absent isSemicolon =>
      exact .eitherSecond (.eitherSecond (Derives.one (.symbol .semicolon) isSemicolon))
  | declaration whole => exact .eitherFirst whole.derives
  | expression whole => exact .eitherSecond (.eitherFirst whole.derives)

/-- The production of a form. -/
def Form.name : Form → Nonterminal
  | .declaration => .declaration
  | .statement => .statement
  | .function => .function

theorem derives_parameters {parameters inside : List Token}
    (separated : Separated (parameters.map fun parameter => [parameter]) inside)
    (areNames : ∀ parameter ∈ parameters, parameter.kind = .identifier)
    (few : parameters.length ≤ 8) : Derives (.optional (.part .parameters)) inside := by
  cases parameters with
  | nil =>
      cases separated
      exact .absent
  | cons first others =>
      have each : ∀ tokens ∈ others.map fun parameter => [parameter],
          Derives Phrase.name tokens := by
        intro tokens listed
        obtain ⟨other, member, rfl⟩ := List.mem_map.1 listed
        exact Derives.one .identifier (areNames other (List.mem_cons_of_mem _ member))
      have fewer : (others.map fun parameter => [parameter]).length ≤ 7 := by
        rw [List.length_map]
        exact Nat.le_of_succ_le_succ few
      obtain ⟨behind, rfl, more⟩ := Derives.upTo_of_separated separated each fewer
      exact .present (.part (Derives.row_token _ (areNames first List.mem_cons_self)
        (Derives.row_last more)))

theorem derives_block {left right : Token} {body : Body} (isLeft : left.kind = .symbol .leftBrace)
    (each : ∀ row ∈ body, Derives (.part .declaration) row.1)
    (isRight : right.kind = .symbol .rightBrace) :
    Derives (.part .block) (left :: (body.tokens ++ [right])) :=
  .part (Derives.row_token _ isLeft (Derives.row_cons (Derives.many_of_forall each)
    (Derives.row_token _ isRight .row_nil)))

/-- A statement is derived from the production of its form. -/
theorem Statement.derives {form : Form} {tokens : List Token} {stmt : Stmt Unit} {dangling : Bool}
    (whole : Statement form tokens stmt dangling) : Derives (.part form.name) tokens := by
  induction whole with
  | classDecl isClass isName isLeft _ joined isRight ih =>
      refine .part (Derives.oneOf_first (.part ?_))
      rw [joined]
      exact Derives.row_token _ isClass (Derives.row_token _ isName (Derives.row_token _ isLeft
        (Derives.row_cons (Derives.many_of_forall ih) (Derives.row_token _ isRight .row_nil))))
  | funDecl isFun _ ih =>
      refine .part (Derives.oneOf_other (.part .funDecl) (by simp) (.part ?_))
      exact Derives.row_token _ isFun (Derives.row_last ih)
  | varDecl whole =>
      exact .part (Derives.oneOf_other (.part .varDecl) (by simp) whole.derives)
  | statement _ ih =>
      exact .part (Derives.oneOf_other (.part .statement) (by simp) ih)
  | function isName isLeft separated areNames few isRight isOpening _ joined isClosing ih =>
      have inner := derives_block isOpening ih isClosing
      refine .part ?_
      rw [joined]
      exact Derives.row_token _ isName (Derives.row_token _ isLeft
        (Derives.row_cons (derives_parameters separated areNames few)
          (Derives.row_token _ isRight (Derives.row_last inner))))
  | expression whole => exact .part (Derives.oneOf_first whole.derives)
  | loop isFor isLeft before guard isSemicolon step isRight _ ih =>
      refine .part (Derives.oneOf_other (.part .forStmt) (by simp) (.part ?_))
      rw [List.append_assoc]
      exact Derives.row_token _ isFor (Derives.row_token _ isLeft (Derives.row_cons before.derives
        (Derives.row_cons guard.derives (Derives.row_token _ isSemicolon
          (Derives.row_cons step.derives (Derives.row_token _ isRight (Derives.row_last ih)))))))
  | @conditional _ _ _ _ tokens _ _ _ isIf isLeft test isRight _ ih =>
      refine .part (Derives.oneOf_other (.part .ifStmt) (by simp) (.part ?_))
      rw [← List.append_nil tokens]
      exact Derives.row_token _ isIf (Derives.row_token _ isLeft
        (Derives.row_cons (.part test.derives) (Derives.row_token _ isRight
          (Derives.row_cons ih (Derives.row_absent .row_nil)))))
  | alternative isIf isLeft test isRight _ isElse _ ih ih' =>
      refine .part (Derives.oneOf_other (.part .ifStmt) (by simp) (.part ?_))
      have other := Derives.row_token (.keyword .elseWord) isElse (Derives.row_last ih')
      exact Derives.row_token _ isIf (Derives.row_token _ isLeft
        (Derives.row_cons (.part test.derives) (Derives.row_token _ isRight
          (Derives.row_cons ih (Derives.row_last (.present other))))))
  | print isPrint whole isSemicolon =>
      refine .part (Derives.oneOf_other (.part .printStmt) (by simp) (.part ?_))
      exact Derives.row_token _ isPrint (Derives.row_cons (.part whole.derives)
        (Derives.row_token _ isSemicolon .row_nil))
  | returning isReturn whole isSemicolon =>
      refine .part (Derives.oneOf_other (.part .returnStmt) (by simp) (.part ?_))
      exact Derives.row_token _ isReturn (Derives.row_cons whole.derives
        (Derives.row_token _ isSemicolon .row_nil))
  | whileLoop isWhile isLeft test isRight _ ih =>
      refine .part (Derives.oneOf_other (.part .whileStmt) (by simp) (.part ?_))
      exact Derives.row_token _ isWhile (Derives.row_token _ isLeft
        (Derives.row_cons (.part test.derives) (Derives.row_token _ isRight (Derives.row_last ih))))
  | block isLeft _ joined isRight ih =>
      refine .part (Derives.oneOf_other (.part .block) (by simp) ?_)
      rw [joined]
      exact derives_block isLeft ih isRight

/-- What has the tree of a program is derived from the first production. -/
theorem ProgramTree.derives {tokens : List Token} {statements : List (Stmt Unit)}
    (tree : ProgramTree tokens statements) : Derives (.part .program) tokens := by
  obtain ⟨rows, each, rfl, _⟩ := tree
  exact .part (Derives.many_of_forall fun row member => (each row member).derives)

/-! ## From derivations to trees -/

/-- The row of tokens has a tree that the production describes. -/
def HasTree (tokens : List Token) : Nonterminal → Prop
  | .program => ∃ statements, ProgramTree tokens statements
  | .declaration => ∃ stmt dangling, Statement .declaration tokens stmt dangling
  | .classDecl => ∃ stmt, Statement .declaration tokens stmt false
  | .funDecl => ∃ stmt, Statement .declaration tokens stmt false
  | .function => ∃ function, Statement .function tokens (.funDecl function) false
  | .varDecl => ∃ stmt, VariableDeclaration tokens stmt
  | .statement => ∃ stmt dangling, Statement .statement tokens stmt dangling
  | .exprStmt => ∃ stmt, ExpressionStatement tokens stmt
  | .forStmt => ∃ stmt dangling, Statement .statement tokens stmt dangling
  | .ifStmt => ∃ stmt dangling, Statement .statement tokens stmt dangling
  | .printStmt => ∃ stmt dangling, Statement .statement tokens stmt dangling
  | .returnStmt => ∃ stmt dangling, Statement .statement tokens stmt dangling
  | .whileStmt => ∃ stmt dangling, Statement .statement tokens stmt dangling
  | .block => ∃ (left right : Token) (body : Body), tokens = left :: (body.tokens ++ [right]) ∧
      left.kind = .symbol .leftBrace ∧ body.Declarations ∧ right.kind = .symbol .rightBrace
  | .parameters => ∃ names : List Token,
      Separated (names.map fun parameter => [parameter]) tokens ∧
        (∀ parameter ∈ names, parameter.kind = .identifier) ∧ names.length ≤ 8
  | .arguments => ∃ rows : Rows, Separated (rows.map Prod.fst) tokens ∧ rows.Expressions ∧
      rows.length ≤ 8
  | .expression => ∃ expr, Expression .assignment tokens expr
  | .assignment => ∃ expr, Expression .assignment tokens expr
  | .logicOr => ∃ expr, Expression (.operation .disjunction) tokens expr
  | .logicAnd => ∃ expr, Expression (.operation .conjunction) tokens expr
  | .equality => ∃ expr, Expression (.operation .equality) tokens expr
  | .comparison => ∃ expr, Expression (.operation .comparison) tokens expr
  | .term => ∃ expr, Expression (.operation .term) tokens expr
  | .factor => ∃ expr, Expression (.operation .factor) tokens expr
  | .unary => ∃ expr, Expression .unary tokens expr
  | .call => ∃ expr, Expression .call tokens expr
  | .primary => ∃ expr, Expression .primary tokens expr

/-- The row of tokens is put together as the phrase says, from parts that have
a tree. -/
def Means : Phrase → List Token → Prop
  | .empty, tokens => tokens = []
  | .terminal wanted, tokens => ∃ token, tokens = [token] ∧ wanted.Matches token
  | .part name, tokens => HasTree tokens name
  | .both first second, tokens =>
    ∃ left right, tokens = left ++ right ∧ Means first left ∧ Means second right
  | .either first second, tokens => Means first tokens ∨ Means second tokens
  | .optional phrase, tokens => tokens = [] ∨ Means phrase tokens
  | .many phrase, tokens =>
    ∃ pieces : List (List Token), tokens = pieces.flatten ∧ ∀ piece ∈ pieces, Means phrase piece
  | .upTo most phrase, tokens =>
    ∃ pieces : List (List Token), tokens = pieces.flatten ∧ pieces.length ≤ most ∧
      ∀ piece ∈ pieces, Means phrase piece

variable {first phrase : Phrase} {rest others : List Phrase} {tokens : List Token}

theorem means_row_cons :
    Means (row (first :: rest)) tokens ↔
      ∃ left right, tokens = left ++ right ∧ Means first left ∧ Means (row rest) right :=
  Iff.rfl

theorem means_row_token {wanted : Terminal} :
    Means (row (.terminal wanted :: rest)) tokens ↔
      ∃ token more, tokens = token :: more ∧ wanted.Matches token ∧ Means (row rest) more := by
  rw [means_row_cons]
  constructor
  · rintro ⟨_, more, rfl, ⟨token, rfl, same⟩, behind⟩
    exact ⟨token, more, rfl, same, behind⟩
  · rintro ⟨token, more, rfl, same, behind⟩
    exact ⟨[token], more, rfl, ⟨token, rfl, same⟩, behind⟩

theorem means_row_last : Means (row [phrase]) tokens ↔ Means phrase tokens := by
  simp [row, Means]

theorem means_oneOf :
    Means (oneOf first others) tokens ↔ ∃ chosen ∈ first :: others, Means chosen tokens := by
  induction others generalizing first with
  | nil => simp [oneOf]
  | cons second others ih => simp [oneOf, Means, ih]

theorem hasTree_tier {tier : Tier} :
    HasTree tokens tier.name ↔ ∃ expr, Expression tier tokens expr := by
  cases tier with
  | operation level => cases level <;> rfl
  | _ => rfl

/-- Pieces that each stand for something stand for a row of such things. -/
theorem exists_rows {α : Type} {f : α → List Token} {P : α → Prop} {pieces : List (List Token)}
    (each : ∀ piece ∈ pieces, ∃ row, f row = piece ∧ P row) :
    ∃ rows : List α, rows.map f = pieces ∧ ∀ row ∈ rows, P row := by
  induction pieces with
  | nil => exact ⟨[], rfl, by simp⟩
  | cons piece pieces ih =>
      obtain ⟨row, rfl, holds⟩ := each piece List.mem_cons_self
      obtain ⟨rows, rfl, all⟩ := ih fun other member => each other (List.mem_cons_of_mem _ member)
      exact ⟨row :: rows, rfl, List.forall_mem_cons.2 ⟨holds, all⟩⟩

/-- A first row and a repetition with commas are rows with commas between them. -/
theorem separated_of_means {α : Type} {f : α → List Token} {P : α → Prop} {most : Nat}
    {behind : List Token} (element : ∀ piece, Means phrase piece → ∃ row, f row = piece ∧ P row)
    (more : Means (.upTo most (row [sign .comma, phrase])) behind) :
    ∃ others : List α, others.length ≤ most ∧ (∀ row ∈ others, P row) ∧
      ∀ first, Separated (f first :: others.map f) (f first ++ behind) := by
  obtain ⟨pieces, rfl, few, each⟩ := more
  induction pieces generalizing most with
  | nil => exact ⟨[], Nat.zero_le _, by simp, fun first => by simpa using Separated.one (f first)⟩
  | cons piece pieces ih =>
      obtain ⟨fewer, rfl⟩ : ∃ fewer, most = fewer + 1 :=
        Nat.exists_eq_add_one.2 (Nat.lt_of_lt_of_le (Nat.succ_pos _) few)
      obtain ⟨others, short, all, separated⟩ := ih (Nat.le_of_succ_le_succ few)
        fun other member => each other (List.mem_cons_of_mem _ member)
      obtain ⟨comma, used, rfl, isComma, behind⟩ :=
        means_row_token.1 (each piece List.mem_cons_self)
      obtain ⟨row, rfl, holds⟩ := element used (means_row_last.1 behind)
      exact ⟨row :: others, Nat.succ_le_succ short, List.forall_mem_cons.2 ⟨holds, all⟩,
        fun first => .more isComma (separated row)⟩

/-- An operand and a repetition of operators and operands group to the left. -/
theorem operation_of_means (level : Precedence) {wanted : Terminal} {further : List Terminal}
    (all : operators level = wanted :: further)
    (means : Means (chain (operandTier level).name wanted further) tokens) :
    ∃ expr, Expression (.operation level) tokens expr := by
  obtain ⟨before, behind, rfl, operand, repeated⟩ := means
  obtain ⟨expr, initial⟩ := hasTree_tier.1 operand
  obtain ⟨pieces, rfl, each⟩ := means_row_last.1 repeated
  have whole : Expression (.operation level) before expr := .operand initial
  clear operand initial repeated
  induction pieces generalizing before expr with
  | nil => exact ⟨expr, by simpa using whole⟩
  | cons piece pieces ih =>
      obtain ⟨_, used, rfl, choice, last⟩ := means_row_cons.1 (each piece List.mem_cons_self)
      obtain ⟨right, second⟩ := hasTree_tier.1 (means_row_last.1 last)
      obtain ⟨chosen, among, means⟩ := means_oneOf.1 choice
      rw [← List.map_cons, ← all] at among
      obtain ⟨terminal, listed, rfl⟩ := List.mem_map.1 among
      obtain ⟨operator, rfl, same⟩ := means
      obtain ⟨expr', done⟩ := ih _ _
        (fun other member => each other (List.mem_cons_of_mem _ member))
        (.operation whole listed same second)
      exact ⟨expr', by simpa using done⟩

/-- An atom and a repetition of arguments and properties group to the left. -/
theorem call_of_means (means : Means (production .call) tokens) :
    ∃ expr, Expression .call tokens expr := by
  obtain ⟨before, behind, rfl, ⟨expr, atom⟩, repeated⟩ := means
  obtain ⟨pieces, rfl, each⟩ := means_row_last.1 repeated
  have whole : Expression .call before expr := .primary atom
  clear atom repeated
  induction pieces generalizing before expr with
  | nil => exact ⟨expr, by simpa using whole⟩
  | cons piece pieces ih =>
      have others := fun other member => each other (List.mem_cons_of_mem _ member)
      rcases each piece List.mem_cons_self with arguments | property
      · obtain ⟨opening, _, rfl, isOpening, behind⟩ := means_row_token.1 arguments
        obtain ⟨inside, _, rfl, inner, behind⟩ := means_row_cons.1 behind
        obtain ⟨closing, _, rfl, isClosing, rfl⟩ := means_row_token.1 behind
        obtain ⟨rows, separated, derived, few⟩ : ∃ rows : Rows,
            Separated (rows.map Prod.fst) inside ∧ rows.Expressions ∧ rows.length ≤ 8 := by
          rcases inner with rfl | inner
          · exact ⟨[], .none, by simp [Rows.Expressions], Nat.zero_le _⟩
          · exact inner
        obtain ⟨expr', done⟩ := ih _ _ others
          (.call whole isOpening separated derived few isClosing)
        exact ⟨expr', by simpa using done⟩
      · obtain ⟨dot, _, rfl, isDot, behind⟩ := means_row_token.1 property
        obtain ⟨name, _, rfl, isName, rfl⟩ := means_row_token.1 behind
        obtain ⟨expr', done⟩ := ih _ _ others (.property whole isDot isName)
        exact ⟨expr', by simpa using done⟩

/-- An `else` behind a statement that could take it belongs to the nearest
conditional that could. -/
theorem Statement.attach {stmt onFalse : Stmt Unit} {others : List Token} {dangling : Bool}
    {otherwise : Token} (whole : Statement .statement tokens stmt true)
    (isElse : otherwise.kind = .keyword .elseWord)
    (other : Statement .statement others onFalse dangling) :
    ∃ stmt dangling, Statement .statement (tokens ++ otherwise :: others) stmt dangling := by
  generalize sameForm : Form.statement = form at whole
  generalize could : true = open' at whole
  induction whole with
  | loop isFor isLeft before guard isSemicolon step isRight _ ih =>
      obtain ⟨stmt, dangling, done⟩ := ih rfl could
      exact ⟨_, _, by simpa using
        Statement.loop isFor isLeft before guard isSemicolon step isRight done⟩
  | @conditional _ _ _ _ _ _ _ inner isIf isLeft test isRight branch ih =>
      cases inner with
      | false =>
          exact ⟨_, _, by simpa using
            Statement.alternative isIf isLeft test isRight branch isElse other⟩
      | true =>
          obtain ⟨stmt, dangling, done⟩ := ih rfl rfl
          exact ⟨_, _, by simpa using Statement.conditional isIf isLeft test isRight done⟩
  | alternative isIf isLeft test isRight branch isElse' _ _ ih =>
      obtain ⟨stmt, dangling, done⟩ := ih rfl could
      exact ⟨_, _, by simpa using
        Statement.alternative isIf isLeft test isRight branch isElse' done⟩
  | whileLoop isWhile isLeft test isRight _ ih =>
      obtain ⟨stmt, dangling, done⟩ := ih rfl could
      exact ⟨_, _, by simpa using Statement.whileLoop isWhile isLeft test isRight done⟩
  | funDecl => cases sameForm
  | varDecl => cases sameForm
  | classDecl => cases sameForm
  | statement => cases sameForm
  | function => cases sameForm
  | _ => cases could

theorem optional_of_means (means : Means (.optional (.part .expression)) tokens) :
    ∃ value, OptionalExpression tokens value := by
  rcases means with rfl | ⟨expr, whole⟩
  · exact ⟨none, .absent⟩
  · exact ⟨some expr, .present whole⟩

theorem body_of_means (means : Means (.many (.part .declaration)) tokens) :
    ∃ body : Body, tokens = body.tokens ∧ body.Declarations := by
  obtain ⟨pieces, rfl, each⟩ := means
  obtain ⟨body, rfl, all⟩ := exists_rows
    (f := fun row : List Token × Stmt Unit × Bool => row.1)
    (P := fun row => Statement .declaration row.1 row.2.1 row.2.2) fun piece member => by
      obtain ⟨stmt, dangling, whole⟩ := each piece member
      exact ⟨(piece, stmt, dangling), rfl, whole⟩
  exact ⟨body, rfl, all⟩

/-- Every production keeps to its meaning. -/
theorem hasTree_of_production {name : Nonterminal} (means : Means (production name) tokens) :
    HasTree tokens name := by
  cases name with
  | program =>
      obtain ⟨body, rfl, derived⟩ := body_of_means means
      exact ⟨body.statements, body, derived, rfl, rfl⟩
  | declaration =>
      rcases means with ⟨stmt, whole⟩ | ⟨stmt, whole⟩ | ⟨stmt, whole⟩ | ⟨stmt, dangling, whole⟩
      · exact ⟨stmt, false, whole⟩
      · exact ⟨stmt, false, whole⟩
      · exact ⟨stmt, false, .varDecl whole⟩
      · exact ⟨stmt, dangling, .statement whole⟩
  | classDecl =>
      simp only [production, word, Phrase.name, sign, means_row_token] at means
      obtain ⟨opening, _, rfl, isClass, name, _, rfl, isName, left, _, rfl, isLeft, behind⟩ := means
      obtain ⟨_, _, rfl, ⟨pieces, rfl, each⟩, closes⟩ := means_row_cons.1 behind
      obtain ⟨right, _, rfl, isRight, rfl⟩ := means_row_token.1 closes
      obtain ⟨rows, rfl, all⟩ := exists_rows
        (f := fun row : List Token × FunctionDecl Unit => row.1)
        (P := fun row => Statement .function row.1 (.funDecl row.2) false) fun piece member => by
          obtain ⟨function, whole⟩ := each piece member
          exact ⟨(piece, function), rfl, whole⟩
      exact ⟨_, .classDecl isClass isName isLeft all rfl isRight⟩
  | funDecl =>
      obtain ⟨opening, _, rfl, isFun, behind⟩ := means_row_token.1 means
      obtain ⟨function, whole⟩ := means_row_last.1 behind
      exact ⟨_, .funDecl isFun whole⟩
  | function =>
      simp only [production, Phrase.name, sign, means_row_token] at means
      obtain ⟨name, _, rfl, isName, left, _, rfl, isLeft, behind⟩ := means
      obtain ⟨inside, _, rfl, list, behind⟩ := means_row_cons.1 behind
      obtain ⟨right, _, rfl, isRight, behind⟩ := means_row_token.1 behind
      obtain ⟨opening, closing, body, rfl, isOpening, derived, isClosing⟩ :=
        means_row_last.1 behind
      obtain ⟨names, separated, areNames, few⟩ : ∃ names : List Token,
          Separated (names.map fun parameter => [parameter]) inside ∧
            (∀ parameter ∈ names, parameter.kind = .identifier) ∧ names.length ≤ 8 := by
        rcases list with rfl | list
        · exact ⟨[], .none, by simp, Nat.zero_le _⟩
        · exact list
      exact ⟨_, .function isName isLeft separated areNames few isRight isOpening derived rfl
        isClosing⟩
  | varDecl =>
      simp only [production, word, Phrase.name, sign, means_row_token] at means
      obtain ⟨opening, _, rfl, isVar, name, _, rfl, isName, behind⟩ := means
      obtain ⟨_, _, rfl, value, behind⟩ := means_row_cons.1 behind
      obtain ⟨semicolon, _, rfl, isSemicolon, rfl⟩ := means_row_token.1 behind
      rcases value with rfl | value
      · exact ⟨_, .bare isVar isName isSemicolon⟩
      · obtain ⟨equals, _, rfl, isEqual, behind⟩ := means_row_token.1 value
        obtain ⟨expr, whole⟩ := means_row_last.1 behind
        exact ⟨_, .initialized isVar isName isEqual whole isSemicolon⟩
  | statement =>
      rcases means with ⟨stmt, whole⟩ | whole | whole | whole | whole | whole | whole
      · exact ⟨stmt, false, .expression whole⟩
      · exact whole
      · exact whole
      · exact whole
      · exact whole
      · exact whole
      · obtain ⟨left, right, body, rfl, isLeft, derived, isRight⟩ := whole
        exact ⟨_, false, .block isLeft derived rfl isRight⟩
  | exprStmt =>
      obtain ⟨_, _, rfl, ⟨expr, whole⟩, behind⟩ := means_row_cons.1 means
      obtain ⟨semicolon, _, rfl, isSemicolon, rfl⟩ := means_row_token.1 behind
      exact ⟨_, .intro whole isSemicolon⟩
  | forStmt =>
      simp only [production, word, sign, means_row_token] at means
      obtain ⟨opening, _, rfl, isFor, left, _, rfl, isLeft, behind⟩ := means
      obtain ⟨first, _, rfl, initializer, behind⟩ := means_row_cons.1 behind
      obtain ⟨second, _, rfl, guard, behind⟩ := means_row_cons.1 behind
      obtain ⟨semicolon, _, rfl, isSemicolon, behind⟩ := means_row_token.1 behind
      obtain ⟨third, _, rfl, step, behind⟩ := means_row_cons.1 behind
      obtain ⟨right, _, rfl, isRight, behind⟩ := means_row_token.1 behind
      obtain ⟨body, dangling, inside⟩ := means_row_last.1 behind
      obtain ⟨condition, guard⟩ := optional_of_means guard
      obtain ⟨increment, step⟩ := optional_of_means step
      obtain ⟨initializer, before⟩ : ∃ initializer, Initializer first initializer := by
        rcases initializer with ⟨stmt, whole⟩ | ⟨stmt, whole⟩ | ⟨semicolon, rfl, isSemicolon⟩
        · exact ⟨_, .declaration whole⟩
        · exact ⟨_, .expression whole⟩
        · exact ⟨_, .absent isSemicolon⟩
      have whole := Statement.loop isFor isLeft before guard isSemicolon step isRight inside
      rw [List.append_assoc] at whole
      exact ⟨_, _, whole⟩
  | ifStmt =>
      simp only [production, word, sign, means_row_token] at means
      obtain ⟨opening, _, rfl, isIf, left, _, rfl, isLeft, behind⟩ := means
      obtain ⟨guard, _, rfl, ⟨condition, test⟩, behind⟩ := means_row_cons.1 behind
      obtain ⟨right, _, rfl, isRight, behind⟩ := means_row_token.1 behind
      obtain ⟨used, _, rfl, ⟨onTrue, dangling, branch⟩, behind⟩ := means_row_cons.1 behind
      rcases means_row_last.1 behind with rfl | other
      · rw [List.append_nil]
        exact ⟨_, _, .conditional isIf isLeft test isRight branch⟩
      · obtain ⟨otherwise, others, rfl, isElse, behind⟩ := means_row_token.1 other
        obtain ⟨onFalse, dangling', whole⟩ := means_row_last.1 behind
        cases dangling with
        | false => exact ⟨_, _, .alternative isIf isLeft test isRight branch isElse whole⟩
        | true =>
            obtain ⟨stmt, inner, done⟩ := branch.attach isElse whole
            exact ⟨_, _, .conditional isIf isLeft test isRight done⟩
  | printStmt =>
      obtain ⟨opening, _, rfl, isPrint, behind⟩ := means_row_token.1 means
      obtain ⟨_, _, rfl, ⟨expr, whole⟩, behind⟩ := means_row_cons.1 behind
      obtain ⟨semicolon, _, rfl, isSemicolon, rfl⟩ := means_row_token.1 behind
      exact ⟨_, _, .print isPrint whole isSemicolon⟩
  | returnStmt =>
      obtain ⟨opening, _, rfl, isReturn, behind⟩ := means_row_token.1 means
      obtain ⟨_, _, rfl, value, behind⟩ := means_row_cons.1 behind
      obtain ⟨semicolon, _, rfl, isSemicolon, rfl⟩ := means_row_token.1 behind
      obtain ⟨value, whole⟩ := optional_of_means value
      exact ⟨_, _, .returning isReturn whole isSemicolon⟩
  | whileStmt =>
      simp only [production, word, sign, means_row_token] at means
      obtain ⟨opening, _, rfl, isWhile, left, _, rfl, isLeft, behind⟩ := means
      obtain ⟨guard, _, rfl, ⟨condition, test⟩, behind⟩ := means_row_cons.1 behind
      obtain ⟨right, _, rfl, isRight, behind⟩ := means_row_token.1 behind
      obtain ⟨body, dangling, inside⟩ := means_row_last.1 behind
      exact ⟨_, _, .whileLoop isWhile isLeft test isRight inside⟩
  | block =>
      obtain ⟨left, _, rfl, isLeft, behind⟩ := means_row_token.1 means
      obtain ⟨_, _, rfl, inside, behind⟩ := means_row_cons.1 behind
      obtain ⟨right, _, rfl, isRight, rfl⟩ := means_row_token.1 behind
      obtain ⟨body, rfl, derived⟩ := body_of_means inside
      exact ⟨left, right, body, rfl, isLeft, derived, isRight⟩
  | parameters =>
      obtain ⟨first, behind, rfl, isName, more⟩ := means_row_token.1 means
      obtain ⟨others, few, areNames, separated⟩ := separated_of_means
        (f := fun parameter : Token => [parameter])
        (P := fun parameter => parameter.kind = .identifier)
        (fun piece => by
          rintro ⟨token, rfl, isName⟩
          exact ⟨token, rfl, isName⟩) (means_row_last.1 more)
      exact ⟨first :: others, separated first, List.forall_mem_cons.2 ⟨isName, areNames⟩,
        Nat.succ_le_succ few⟩
  | arguments =>
      obtain ⟨before, behind, rfl, ⟨expr, whole⟩, more⟩ := means_row_cons.1 means
      obtain ⟨others, few, derived, separated⟩ := separated_of_means
        (f := fun row : List Token × Expr Unit => row.1)
        (P := fun row => Expression .assignment row.1 row.2)
        (fun piece => by
          rintro ⟨expr, whole⟩
          exact ⟨(piece, expr), rfl, whole⟩) (means_row_last.1 more)
      exact ⟨(before, expr) :: others, separated (before, expr),
        List.forall_mem_cons.2 ⟨whole, derived⟩, Nat.succ_le_succ few⟩
  | expression => exact means
  | assignment =>
      rcases means with means | ⟨expr, whole⟩
      · obtain ⟨before, _, rfl, target, behind⟩ := means_row_cons.1 means
        obtain ⟨name, _, rfl, isName, behind⟩ := means_row_token.1 behind
        obtain ⟨equals, _, rfl, isEqual, behind⟩ := means_row_token.1 behind
        obtain ⟨value, source⟩ := means_row_last.1 behind
        rcases target with rfl | target
        · exact ⟨_, .assignVariable isName isEqual source⟩
        · obtain ⟨owner, _, rfl, ⟨object, whole⟩, behind⟩ := means_row_cons.1 target
          obtain ⟨dot, _, rfl, isDot, rfl⟩ := means_row_token.1 behind
          exact ⟨_, by simpa using Expression.assignProperty whole isDot isName isEqual source⟩
      · exact ⟨expr, .unassigned whole⟩
  | logicOr => exact operation_of_means .disjunction rfl means
  | logicAnd => exact operation_of_means .conjunction rfl means
  | equality => exact operation_of_means .equality rfl means
  | comparison => exact operation_of_means .comparison rfl means
  | term => exact operation_of_means .term rfl means
  | factor => exact operation_of_means .factor rfl means
  | unary =>
      rcases means with means | ⟨expr, whole⟩
      · obtain ⟨_, _, rfl, choice, behind⟩ := means_row_cons.1 means
        obtain ⟨expr, whole⟩ := means_row_last.1 behind
        rcases choice with ⟨operator, rfl, isBang⟩ | ⟨operator, rfl, isMinus⟩
        · exact ⟨_, .unary (.inl isBang) whole⟩
        · exact ⟨_, .unary (.inr isMinus) whole⟩
      · exact ⟨expr, .noPrefix whole⟩
  | call => exact call_of_means means
  | primary =>
      rcases means with ⟨token, rfl, value, same⟩ | ⟨token, rfl, text, same⟩ | ⟨token, rfl, same⟩ |
        ⟨token, rfl, same⟩ | ⟨token, rfl, same⟩ | ⟨token, rfl, same⟩ | ⟨token, rfl, same⟩ | means
      · exact ⟨_, .number same⟩
      · exact ⟨_, .string same⟩
      · exact ⟨_, .trueWord same⟩
      · exact ⟨_, .falseWord same⟩
      · exact ⟨_, .nilWord same⟩
      · exact ⟨_, .thisWord same⟩
      · exact ⟨_, .reference same⟩
      · obtain ⟨opening, _, rfl, isOpening, behind⟩ := means_row_token.1 means
        obtain ⟨_, _, rfl, ⟨expr, whole⟩, behind⟩ := means_row_cons.1 behind
        obtain ⟨closing, _, rfl, isClosing, rfl⟩ := means_row_token.1 behind
        exact ⟨_, .grouping isOpening whole isClosing⟩

/-- What is derived from a phrase is put together as the phrase says. -/
theorem Derives.means (derived : Derives phrase tokens) : Means phrase tokens := by
  induction derived with
  | empty => rfl
  | terminal same => exact ⟨_, rfl, same⟩
  | part _ ih => exact hasTree_of_production ih
  | both _ _ ih ih' => exact ⟨_, _, rfl, ih, ih'⟩
  | eitherFirst _ ih => exact .inl ih
  | eitherSecond _ ih => exact .inr ih
  | absent => exact .inl rfl
  | present _ ih => exact .inr ih
  | manyEnd => exact ⟨[], rfl, by simp⟩
  | manyMore _ _ ih ih' =>
      obtain ⟨pieces, rfl, each⟩ := ih'
      exact ⟨_ :: pieces, rfl, List.forall_mem_cons.2 ⟨ih, each⟩⟩
  | upToEnd => exact ⟨[], rfl, Nat.zero_le _, by simp⟩
  | upToMore _ _ ih ih' =>
      obtain ⟨pieces, rfl, few, each⟩ := ih'
      exact ⟨_ :: pieces, rfl, Nat.succ_le_succ few, List.forall_mem_cons.2 ⟨ih, each⟩⟩

/-- A row of tokens is derived as a program exactly if it has a tree. -/
theorem derives_program_iff :
    Derives (.part .program) tokens ↔ ∃ statements, ProgramTree tokens statements := by
  constructor
  · exact fun derived => derived.means
  · rintro ⟨statements, tree⟩
    exact tree.derives

end Lox.Grammar
