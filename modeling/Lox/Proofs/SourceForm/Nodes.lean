/-
# The nodes of a tree that was derived

Every node of a tree that the grammar derives is an expression of its own:
some of the tokens of the tree are derived as it.  Only the condition of a loop
that was written without one has no tokens; it is derived from a token that
could have been written.
-/

import Lox.Proofs.Grammar
import Lox.Proofs.Nodes

namespace Lox

namespace Grammar

/-- An expression of any tier is an expression. -/
theorem Expression.whole {tier : Tier} {tokens : List Token} {expr : Expr Unit}
    (derived : Expression tier tokens expr) : Expression .assignment tokens expr := by
  have ofConjunction (derived : Expression (.operation .conjunction) tokens expr) :
      Expression .assignment tokens expr := .unassigned (.operand derived)
  have ofEquality (derived : Expression (.operation .equality) tokens expr) :
      Expression .assignment tokens expr := ofConjunction (.operand derived)
  have ofComparison (derived : Expression (.operation .comparison) tokens expr) :
      Expression .assignment tokens expr := ofEquality (.operand derived)
  have ofTerm (derived : Expression (.operation .term) tokens expr) :
      Expression .assignment tokens expr := ofComparison (.operand derived)
  have ofFactor (derived : Expression (.operation .factor) tokens expr) :
      Expression .assignment tokens expr := ofTerm (.operand derived)
  have ofUnary (derived : Expression .unary tokens expr) : Expression .assignment tokens expr :=
    ofFactor (.operand derived)
  cases tier with
  | assignment => exact derived
  | operation level =>
      cases level with
      | disjunction => exact .unassigned derived
      | conjunction => exact ofConjunction derived
      | equality => exact ofEquality derived
      | comparison => exact ofComparison derived
      | term => exact ofTerm derived
      | factor => exact ofFactor derived
  | unary => exact ofUnary derived
  | call => exact ofUnary (.noPrefix derived)
  | primary => exact ofUnary (.noPrefix (.primary derived))

theorem Separated.mem {rows : List (List Token)} {tokens : List Token}
    (separated : Separated rows tokens) :
    (∀ row ∈ rows, ∀ token ∈ row, token ∈ tokens) ∧
      ∀ token ∈ tokens, (∃ row ∈ rows, token ∈ row) ∨ token.kind = .symbol .comma := by
  induction separated with
  | none => simp
  | one tokens => exact ⟨by simp, fun token member => .inl ⟨tokens, by simp, member⟩⟩
  | @more first second rest others comma isComma _ ih =>
      obtain ⟨inside, outside⟩ := ih
      constructor
      · intro row listed token member
        rcases List.mem_cons.1 listed with rfl | listed
        · exact List.mem_append_left _ member
        · exact List.mem_append_right _ (List.mem_cons_of_mem _ (inside row listed token member))
      · intro token member
        rcases List.mem_append.1 member with here | later
        · exact .inl ⟨first, List.mem_cons_self, here⟩
        · rcases List.mem_cons.1 later with rfl | later
          · exact .inr isComma
          · rcases outside token later with ⟨row, listed, member⟩ | isComma
            · exact .inl ⟨row, List.mem_cons_of_mem _ listed, member⟩
            · exact .inr isComma

/-- A node of an expression is derived from some of its tokens. -/
def Owned (tokens : List Token) (node : Expr Unit) : Prop :=
  ∃ used, (∀ token ∈ used, token ∈ tokens) ∧ Expression .assignment used node

theorem Owned.mono {tokens more : List Token} {node : Expr Unit} (owned : Owned tokens node)
    (subset : ∀ token ∈ tokens, token ∈ more) : Owned more node := by
  obtain ⟨used, inside, derived⟩ := owned
  exact ⟨used, fun token member => subset token (inside token member), derived⟩

theorem nodes_node (level : Precedence) (left right : Expr Unit) (operator : Token) :
    (level.node left operator right).nodes =
      level.node left operator right :: (left.nodes ++ right.nodes) := by
  cases level <;> simp [Precedence.node, Expr.nodes]

/-- Every node of an expression is derived from some of its tokens. -/
theorem Expression.owned {tier : Tier} {tokens : List Token} {expr node : Expr Unit}
    (derived : Expression tier tokens expr) (member : node ∈ expr.nodes) : Owned tokens node := by
  have self {tier : Tier} {used : List Token} {expr : Expr Unit}
      (derived : Expression tier used expr) : Owned used expr :=
    ⟨used, fun _ => id, derived.whole⟩
  induction derived with
  | assignVariable isName isEqual source ih =>
      rcases List.mem_cons.1 member with rfl | member
      · exact self (.assignVariable isName isEqual source)
      · exact (ih member).mono (by simp_all)
  | assignProperty owner isDot isName isEqual source ih ih' =>
      rcases List.mem_cons.1 member with rfl | member
      · exact self (.assignProperty owner isDot isName isEqual source)
      · rcases List.mem_append.1 member with member | member
        · exact (ih member).mono (by simp_all)
        · exact (ih' member).mono (by simp_all)
  | unassigned _ ih => exact ih member
  | operation first listed same second ih ih' =>
      rw [nodes_node] at member
      rcases List.mem_cons.1 member with rfl | member
      · exact self (.operation first listed same second)
      · rcases List.mem_append.1 member with member | member
        · exact (ih member).mono (by simp_all)
        · exact (ih' member).mono (by simp_all)
  | operand _ ih => exact ih member
  | unary isOperator behind ih =>
      rcases List.mem_cons.1 member with rfl | member
      · exact self (.unary isOperator behind)
      · exact (ih member).mono (by simp_all)
  | noPrefix _ ih => exact ih member
  | call called isOpening separated derived few isClosing ih ih' =>
      rcases List.mem_cons.1 member with rfl | member
      · exact self (.call called isOpening separated derived few isClosing)
      · rcases List.mem_append.1 member with member | member
        · exact (ih member).mono (by simp_all)
        · obtain ⟨_, listed, member⟩ := Expr.mem_allNodes.1 member
          obtain ⟨row, among, rfl⟩ := List.mem_map.1 listed
          have inside := separated.mem.1 row.1 (List.mem_map_of_mem among)
          exact (ih' row among member).mono fun token used => by simp [inside token used]
  | property owner isDot isName ih =>
      rcases List.mem_cons.1 member with rfl | member
      · exact self (.property owner isDot isName)
      · exact (ih member).mono (by simp_all)
  | primary _ ih => exact ih member
  | grouping isOpening inside isClosing ih =>
      rcases List.mem_cons.1 member with rfl | member
      · exact self (.grouping isOpening inside isClosing)
      · exact (ih member).mono (by simp_all)
  | number same => exact List.mem_singleton.1 member ▸ self (.number same)
  | string same => exact List.mem_singleton.1 member ▸ self (.string same)
  | trueWord same => exact List.mem_singleton.1 member ▸ self (.trueWord same)
  | falseWord same => exact List.mem_singleton.1 member ▸ self (.falseWord same)
  | nilWord same => exact List.mem_singleton.1 member ▸ self (.nilWord same)
  | thisWord same => exact List.mem_singleton.1 member ▸ self (.thisWord same)
  | reference same => exact List.mem_singleton.1 member ▸ self (.reference same)

/-- The word `true`, as it could have been written. -/
def writtenTrue : Token :=
  ⟨.keyword .trueWord, "true", 1⟩

/-- A node of a statement is derived from some of its tokens, or is the
condition of a loop without one. -/
def Written (tokens : List Token) (node : Expr Unit) : Prop :=
  Owned tokens node ∨ node = .literal (.boolean true)

theorem Written.mono {tokens more : List Token} {node : Expr Unit} (written : Written tokens node)
    (subset : ∀ token ∈ tokens, token ∈ more) : Written more node :=
  written.imp_left fun owned => owned.mono subset

theorem OptionalExpression.owned {tokens : List Token} {value : Option (Expr Unit)}
    {expr node : Expr Unit} (derived : OptionalExpression tokens value)
    (found : value = some expr) (member : node ∈ expr.nodes) : Owned tokens node := by
  cases derived with
  | absent => cases found
  | present whole =>
      cases found
      exact whole.owned member

theorem ExpressionStatement.owned {tokens : List Token} {stmt : Stmt Unit} {node : Expr Unit}
    (derived : ExpressionStatement tokens stmt) (member : node ∈ stmt.nodes) :
    Owned tokens node := by
  obtain ⟨whole, _⟩ := derived
  exact (whole.owned member).mono (by simp_all)

theorem VariableDeclaration.owned {tokens : List Token} {stmt : Stmt Unit} {node : Expr Unit}
    (derived : VariableDeclaration tokens stmt) (member : node ∈ stmt.nodes) :
    Owned tokens node := by
  cases derived with
  | bare => cases member
  | initialized _ _ _ source _ => exact (source.owned member).mono (by simp_all)

theorem Initializer.owned {tokens : List Token} {initializer : Option (Stmt Unit)}
    {stmt : Stmt Unit} {node : Expr Unit} (derived : Initializer tokens initializer)
    (found : initializer = some stmt) (member : node ∈ stmt.nodes) : Owned tokens node := by
  cases derived with
  | absent => cases found
  | declaration whole =>
      cases found
      exact whole.owned member
  | expression whole =>
      cases found
      exact whole.owned member

/-- The nodes of a loop are those of its clauses and its body, and its
condition if it has none. -/
theorem mem_nodes_loopTree {initializer : Option (Stmt Unit)}
    {condition increment : Option (Expr Unit)} {body : Stmt Unit} {node : Expr Unit}
    (member : node ∈ (loopTree initializer condition increment body).nodes) :
    (∃ stmt, initializer = some stmt ∧ node ∈ stmt.nodes) ∨
      (∃ expr, condition = some expr ∧ node ∈ expr.nodes) ∨
      (∃ expr, increment = some expr ∧ node ∈ expr.nodes) ∨ node ∈ body.nodes ∨
      node = .literal (.boolean true) := by
  cases initializer <;> cases condition <;> cases increment <;>
    simp only [loopTree, roundsTree, Stmt.nodes, Stmt.allNodes, Expr.nodes, List.mem_append,
      List.mem_singleton, List.append_nil] at member <;> grind

/-- Every node of a statement is derived from some of its tokens, or is the
condition of a loop without one. -/
theorem Statement.written {form : Form} {tokens : List Token} {stmt : Stmt Unit} {dangling : Bool}
    {node : Expr Unit} (derived : Statement form tokens stmt dangling)
    (member : node ∈ stmt.nodes) : Written tokens node := by
  induction derived with
  | classDecl _ _ _ _ joined _ ih =>
      obtain ⟨method, listed, member⟩ := Stmt.mem_methodNodes.1 member
      obtain ⟨row, among, rfl⟩ := List.mem_map.1 listed
      refine (ih row among member).mono fun token used => ?_
      have inside := List.mem_flatten_of_mem (List.mem_map_of_mem (f := Prod.fst) among) used
      simp [joined, inside]
  | funDecl _ _ ih => exact (ih member).mono fun token used => List.mem_cons_of_mem _ used
  | varDecl whole => exact .inl (whole.owned member)
  | statement _ ih => exact ih member
  | function _ _ _ _ _ _ _ _ joined _ ih =>
      obtain ⟨stmt, listed, member⟩ := Stmt.mem_allNodes.1 member
      obtain ⟨row, among, rfl⟩ := List.mem_map.1 listed
      refine (ih row among member).mono fun token used => ?_
      have inside := List.mem_flatten_of_mem (List.mem_map_of_mem (f := Prod.fst) among) used
      simp [joined, inside]
  | expression whole => exact .inl (whole.owned member)
  | loop _ _ before guard _ step _ _ ih =>
      rcases mem_nodes_loopTree member with ⟨stmt, found, member⟩ | ⟨expr, found, member⟩ |
        ⟨expr, found, member⟩ | member | same
      · exact .inl ((before.owned found member).mono (by simp_all))
      · exact .inl ((guard.owned found member).mono (by simp_all))
      · exact .inl ((step.owned found member).mono (by simp_all))
      · exact (ih member).mono (by simp_all)
      · exact .inr same
  | conditional _ _ test _ _ ih =>
      rcases List.mem_append.1 member with member | member
      · exact .inl ((test.owned member).mono (by simp_all))
      · exact (ih member).mono (by simp_all)
  | alternative _ _ test _ _ _ _ ih ih' =>
      rcases List.mem_append.1 member with member | member
      · rcases List.mem_append.1 member with member | member
        · exact .inl ((test.owned member).mono (by simp_all))
        · exact (ih member).mono (by simp_all)
      · exact (ih' member).mono (by simp_all)
  | print _ whole _ => exact .inl ((whole.owned member).mono (by simp_all))
  | @returning _ _ _ value _ whole _ =>
      cases value with
      | none => cases member
      | some expr => exact .inl ((whole.owned rfl member).mono (by simp_all))
  | whileLoop _ _ test _ _ ih =>
      rcases List.mem_append.1 member with member | member
      · exact .inl ((test.owned member).mono (by simp_all))
      · exact (ih member).mono (by simp_all)
  | block _ _ joined _ ih =>
      obtain ⟨stmt, listed, member⟩ := Stmt.mem_allNodes.1 member
      obtain ⟨row, among, rfl⟩ := List.mem_map.1 listed
      refine (ih row among member).mono fun token used => ?_
      have inside := List.mem_flatten_of_mem (List.mem_map_of_mem (f := Prod.fst) among) used
      simp [joined, inside]

/-- Every node of a program is an expression of some of its tokens, or of a
word that could have been written. -/
theorem ProgramTree.written {tokens : List Token} {statements : List (Stmt Unit)}
    {node : Expr Unit} (tree : ProgramTree tokens statements)
    (member : node ∈ Stmt.allNodes statements) : Written tokens node := by
  obtain ⟨rows, each, rfl, rfl⟩ := tree
  obtain ⟨stmt, listed, member⟩ := Stmt.mem_allNodes.1 member
  obtain ⟨row, among, rfl⟩ := List.mem_map.1 listed
  refine ((each row among).written member).mono fun token used => ?_
  exact List.mem_flatten_of_mem (List.mem_map_of_mem among) used

/-- Every operator is a symbol or a reserved word. -/
theorem kind_of_operator {level : Precedence} {terminal : Terminal} {operator : Token}
    (listed : terminal ∈ operators level) (same : terminal.Matches operator) :
    (∃ symbol, operator.kind = .symbol symbol) ∨ ∃ keyword, operator.kind = .keyword keyword := by
  cases terminal with
  | symbol symbol => exact .inl ⟨symbol, same⟩
  | keyword keyword => exact .inr ⟨keyword, same⟩
  | _ => cases level <;> simp [operators] at listed

/-- The number that a token of an expression stands for is one of its nodes. -/
theorem Expression.mem_nodes_of_number {tier : Tier} {tokens : List Token} {expr : Expr Unit}
    {token : Token} {value : Float} (derived : Expression tier tokens expr)
    (used : token ∈ tokens) (isNumber : token.kind = .number value) :
    .literal (.number value) ∈ expr.nodes := by
  induction derived with
  | assignVariable isName isEqual _ ih =>
      rcases List.mem_cons.1 used with rfl | used
      · cases isName.symm.trans isNumber
      rcases List.mem_cons.1 used with rfl | used
      · cases isEqual.symm.trans isNumber
      exact List.mem_cons_of_mem _ (ih used)
  | assignProperty _ isDot isName isEqual _ ih ih' =>
      rcases List.mem_append.1 used with used | used
      · exact List.mem_cons_of_mem _ (List.mem_append_left _ (ih used))
      rcases List.mem_cons.1 used with rfl | used
      · cases isDot.symm.trans isNumber
      rcases List.mem_cons.1 used with rfl | used
      · cases isName.symm.trans isNumber
      rcases List.mem_cons.1 used with rfl | used
      · cases isEqual.symm.trans isNumber
      exact List.mem_cons_of_mem _ (List.mem_append_right _ (ih' used))
  | unassigned _ ih => exact ih used
  | @operation level _ _ _ _ _ _ _ listed same _ ih ih' =>
      rw [nodes_node]
      rcases List.mem_append.1 used with used | used
      · exact List.mem_cons_of_mem _ (List.mem_append_left _ (ih used))
      rcases List.mem_cons.1 used with rfl | used
      · rcases kind_of_operator listed same with ⟨symbol, kind⟩ | ⟨keyword, kind⟩
        · cases kind.symm.trans isNumber
        · cases kind.symm.trans isNumber
      · exact List.mem_cons_of_mem _ (List.mem_append_right _ (ih' used))
  | operand _ ih => exact ih used
  | unary isOperator _ ih =>
      rcases List.mem_cons.1 used with rfl | used
      · simp [isNumber] at isOperator
      · exact List.mem_cons_of_mem _ (ih used)
  | noPrefix _ ih => exact ih used
  | call _ isOpening separated _ _ isClosing ih ih' =>
      rcases List.mem_append.1 used with used | used
      · exact List.mem_cons_of_mem _ (List.mem_append_left _ (ih used))
      rcases List.mem_cons.1 used with rfl | used
      · cases isOpening.symm.trans isNumber
      rcases List.mem_append.1 used with used | used
      · rcases separated.mem.2 _ used with ⟨_, listed, used⟩ | isComma
        · obtain ⟨row, among, rfl⟩ := List.mem_map.1 listed
          exact List.mem_cons_of_mem _ (List.mem_append_right _
            (Expr.mem_allNodes.2 ⟨row.2, List.mem_map_of_mem among, ih' row among used⟩))
        · cases isComma.symm.trans isNumber
      · rw [List.mem_singleton.1 used] at isNumber
        cases isClosing.symm.trans isNumber
  | property _ isDot isName ih =>
      rcases List.mem_append.1 used with used | used
      · exact List.mem_cons_of_mem _ (ih used)
      rcases List.mem_cons.1 used with rfl | used
      · cases isDot.symm.trans isNumber
      · rw [List.mem_singleton.1 used] at isNumber
        cases isName.symm.trans isNumber
  | primary _ ih => exact ih used
  | grouping isOpening _ isClosing ih =>
      rcases List.mem_cons.1 used with rfl | used
      · cases isOpening.symm.trans isNumber
      rcases List.mem_append.1 used with used | used
      · exact List.mem_cons_of_mem _ (ih used)
      · rw [List.mem_singleton.1 used] at isNumber
        cases isClosing.symm.trans isNumber
  | number same =>
      rw [List.mem_singleton.1 used] at isNumber
      cases same.symm.trans isNumber
      exact Expr.mem_nodes_self _
  | _ same =>
      rw [List.mem_singleton.1 used] at isNumber
      cases same.symm.trans isNumber

end Grammar

end Lox
