/-
# Where the walk arrives

The walk goes through a program part by part.  `Text.Visits` says at which parts
it arrives and in which state, one step for each call that the analysis makes
of itself.  This module shows what holds at every part of a text that is
accepted: the distances that the walk knows in the end are those that it
recorded there, and every name that an open scope declares is initialized, but
for a local variable inside its own initializer.

A program is run with the texts that were accepted before it.  So the last part
is about parts of several texts (`Visited`).
-/

import Lox.Proofs.Frame
import Lox.Proofs.Spelling
import Lox.Proofs.Walk

namespace Lox

/-- What the analysis walks through in one call. -/
inductive Part where
  | expr (value : Expr Reference)
  | exprs (values : List (Expr Reference))
  | stmt (statement : Stmt Reference)
  | function (kind : FunctionKind) (declaration : FunctionDecl Reference)
  | methods (members : List (FunctionDecl Reference))
  | stmts (statements : List (Stmt Reference))

namespace Part

/-- The references of a part with the tokens that name them. -/
def references : Part → List (Reference × Token)
  | .expr value => value.references
  | .exprs values => Expr.allReferences values
  | .stmt statement => statement.references
  | .function _ declaration => Stmt.functionReferences declaration
  | .methods members => Stmt.methodReferences members
  | .stmts statements => Stmt.allReferences statements

/-- The labels of the references of a part. -/
abbrev labels (part : Part) : List Reference :=
  part.references.map Prod.fst

/-- The tokens of a part are allowed ones and of the kinds that belong in their
places. -/
def Shaped (allowed : Token → Prop) : Part → Prop
  | .expr value => value.Shaped allowed
  | .exprs values => Expr.AllShaped allowed values
  | .stmt statement => statement.Shaped allowed
  | .function _ declaration => Stmt.FunctionShaped allowed declaration
  | .methods members => Stmt.MethodsShaped allowed members
  | .stmts statements => Stmt.AllShaped allowed statements

end Part

namespace Analysis

/-- Walks through a part. -/
def walk (analysis : Analysis) : Part → Analysis
  | .expr value => analysis.expr value
  | .exprs values => analysis.exprs values
  | .stmt statement => analysis.stmt statement
  | .function kind declaration => analysis.function kind declaration
  | .methods members => analysis.methods members
  | .stmts statements => analysis.stmts statements

/-- Walking through a part in a state, the analysis calls itself for another
part in another state. -/
inductive Calls (analysis : Analysis) : Part → Analysis → Part → Prop where
  | inner {inner : Expr Reference} : Calls analysis (.expr (.grouping inner)) analysis (.expr inner)
  | operand {operator : Token} {operand : Expr Reference} :
      Calls analysis (.expr (.unary operator operand)) analysis (.expr operand)
  | left {left right : Expr Reference} {operator : Token} :
      Calls analysis (.expr (.binary left operator right)) analysis (.expr left)
  | right {left right : Expr Reference} {operator : Token} :
      Calls analysis (.expr (.binary left operator right)) (analysis.expr left) (.expr right)
  | first {left right : Expr Reference} {operator : Token} :
      Calls analysis (.expr (.logical left operator right)) analysis (.expr left)
  | second {left right : Expr Reference} {operator : Token} :
      Calls analysis (.expr (.logical left operator right)) (analysis.expr left) (.expr right)
  | value {reference : Reference} {name : Token} {value : Expr Reference} :
      Calls analysis (.expr (.assign reference name value)) analysis (.expr value)
  | callee {callee : Expr Reference} {paren : Token} {arguments : List (Expr Reference)} :
      Calls analysis (.expr (.call callee paren arguments)) analysis (.expr callee)
  | arguments {callee : Expr Reference} {paren : Token} {arguments : List (Expr Reference)} :
      Calls analysis (.expr (.call callee paren arguments)) (analysis.expr callee)
        (.exprs arguments)
  | object {object : Expr Reference} {name : Token} :
      Calls analysis (.expr (.get object name)) analysis (.expr object)
  | stored {object value : Expr Reference} {name : Token} :
      Calls analysis (.expr (.set object name value)) analysis (.expr value)
  | owner {object value : Expr Reference} {name : Token} :
      Calls analysis (.expr (.set object name value)) (analysis.expr value) (.expr object)
  | firstExpr {first : Expr Reference} {rest : List (Expr Reference)} :
      Calls analysis (.exprs (first :: rest)) analysis (.expr first)
  | otherExprs {first : Expr Reference} {rest : List (Expr Reference)} :
      Calls analysis (.exprs (first :: rest)) (analysis.expr first) (.exprs rest)
  | expression {value : Expr Reference} :
      Calls analysis (.stmt (.expression value)) analysis (.expr value)
  | print {value : Expr Reference} : Calls analysis (.stmt (.print value)) analysis (.expr value)
  | initializer {name : Token} {initializer : Expr Reference} :
      Calls analysis (.stmt (.varDecl name (some initializer))) (analysis.declare name)
        (.expr initializer)
  | block {body : List (Stmt Reference)} :
      Calls analysis (.stmt (.block body)) analysis.enter (.stmts body)
  | condition {condition : Expr Reference} {onTrue : Stmt Reference}
      {onFalse : Option (Stmt Reference)} :
      Calls analysis (.stmt (.conditional condition onTrue onFalse)) analysis (.expr condition)
  | onTrue {condition : Expr Reference} {onTrue : Stmt Reference}
      {onFalse : Option (Stmt Reference)} :
      Calls analysis (.stmt (.conditional condition onTrue onFalse)) (analysis.expr condition)
        (.stmt onTrue)
  | onFalse {condition : Expr Reference} {onTrue onFalse : Stmt Reference} :
      Calls analysis (.stmt (.conditional condition onTrue (some onFalse)))
        ((analysis.expr condition).stmt onTrue) (.stmt onFalse)
  | guard {condition : Expr Reference} {body : Stmt Reference} :
      Calls analysis (.stmt (.whileLoop condition body)) analysis (.expr condition)
  | round {condition : Expr Reference} {body : Stmt Reference} :
      Calls analysis (.stmt (.whileLoop condition body)) (analysis.expr condition) (.stmt body)
  | function {declaration : FunctionDecl Reference} :
      Calls analysis (.stmt (.funDecl declaration))
        ((analysis.declare declaration.name).define declaration.name)
        (.function .function declaration)
  | returned {keyword : Token} {value : Expr Reference} :
      Calls analysis (.stmt (.returning keyword (some value))) (analysis.returning keyword)
        (.expr value)
  | methods {name : Token} {members : List (FunctionDecl Reference)} :
      Calls analysis (.stmt (.classDecl name members)) (analysis.enterClass name)
        (.methods members)
  | body {kind : FunctionKind} {name : Token} {names : List Token}
      {body : List (Stmt Reference)} :
      Calls analysis (.function kind (.mk name names body)) (analysis.enterFunction kind names)
        (.stmts body)
  | firstMethod {first : FunctionDecl Reference} {rest : List (FunctionDecl Reference)} :
      Calls analysis (.methods (first :: rest)) analysis (.function .method first)
  | otherMethods {first : FunctionDecl Reference} {rest : List (FunctionDecl Reference)} :
      Calls analysis (.methods (first :: rest)) (analysis.function .method first) (.methods rest)
  | firstStmt {first : Stmt Reference} {rest : List (Stmt Reference)} :
      Calls analysis (.stmts (first :: rest)) analysis (.stmt first)
  | otherStmts {first : Stmt Reference} {rest : List (Stmt Reference)} :
      Calls analysis (.stmts (first :: rest)) (analysis.stmt first) (.stmts rest)

/-- Before and behind one of its calls, a walk adds distances only of the
references that are left. -/
theorem Calls.adds {analysis inner : Analysis} {part piece : Part}
    (calls : analysis.Calls part inner piece) :
    ∃ before behind, Adds before analysis inner ∧
      Adds behind (inner.walk piece) (analysis.walk part) ∧
      (before ++ (piece.references ++ behind)).Perm part.references := by
  have whole {own : List (Reference × Token)} : ([] ++ (own ++ [])).Perm own := by simp
  have front {own behind : List (Reference × Token)} :
      ([] ++ (own ++ behind)).Perm (own ++ behind) := .refl _
  have back {before own : List (Reference × Token)} :
      (before ++ (own ++ [])).Perm (before ++ own) := by simp
  cases calls with
  | inner => exact ⟨[], [], .refl _, .refl _, whole⟩
  | operand => exact ⟨[], [], .refl _, .refl _, whole⟩
  | left => exact ⟨[], _, .refl _, adds_expr _ _, front⟩
  | right => exact ⟨_, [], adds_expr _ _, .refl _, back⟩
  | first => exact ⟨[], _, .refl _, adds_expr _ _, front⟩
  | second => exact ⟨_, [], adds_expr _ _, .refl _, back⟩
  | value => exact ⟨[], _, .refl _, .record _ _ _, front⟩
  | callee => exact ⟨[], _, .refl _, adds_exprs _ _, front⟩
  | arguments => exact ⟨_, [], adds_expr _ _, .refl _, back⟩
  | object => exact ⟨[], [], .refl _, .refl _, whole⟩
  | stored => exact ⟨[], _, .refl _, adds_expr _ _, front.trans List.perm_append_comm⟩
  | owner => exact ⟨_, [], adds_expr _ _, .refl _, back.trans List.perm_append_comm⟩
  | firstExpr => exact ⟨[], _, .refl _, adds_exprs _ _, front⟩
  | otherExprs => exact ⟨_, [], adds_expr _ _, .refl _, back⟩
  | expression => exact ⟨[], [], .refl _, .refl _, whole⟩
  | print => exact ⟨[], [], .refl _, .refl _, whole⟩
  | initializer => exact ⟨[], [], .declare _ _, .define _ _, whole⟩
  | block => exact ⟨[], [], .of_eq rfl rfl, .of_eq rfl rfl, whole⟩
  | @condition _ _ onFalse =>
      cases onFalse with
      | none => exact ⟨[], _, .refl _, adds_stmt _ _, front⟩
      | some => exact ⟨[], _, .refl _, (adds_stmt _ _).append (adds_stmt _ _), by
          simp [Part.references, Stmt.references]⟩
  | @onTrue _ _ onFalse =>
      cases onFalse with
      | none => exact ⟨_, [], adds_expr _ _, .refl _, back⟩
      | some => exact ⟨_, _, adds_expr _ _, adds_stmt _ _, by
          simp [Part.references, Stmt.references]⟩
  | onFalse => exact ⟨_, [], (adds_expr _ _).append (adds_stmt _ _), .refl _, back⟩
  | guard => exact ⟨[], _, .refl _, adds_stmt _ _, front⟩
  | round => exact ⟨_, [], adds_expr _ _, .refl _, back⟩
  | function => exact ⟨[], [], (Adds.declare _ _).trans (.define _ _), .refl _, whole⟩
  | returned => exact ⟨[], [], .returning _ _, .refl _, whole⟩
  | methods => exact ⟨[], [], .enterClass _ _, .of_eq rfl rfl, whole⟩
  | body => exact ⟨[], [], .enterFunction _ _ _, .of_eq rfl rfl, whole⟩
  | firstMethod => exact ⟨[], _, .refl _, adds_methods _ _, front⟩
  | otherMethods => exact ⟨_, [], adds_function _ _ _, .refl _, back⟩
  | firstStmt => exact ⟨[], _, .refl _, adds_stmts _ _, front⟩
  | otherStmts => exact ⟨_, [], adds_stmt _ _, .refl _, back⟩

theorem Calls.shaped {allowed : Token → Prop} {analysis inner : Analysis} {part piece : Part}
    (calls : analysis.Calls part inner piece) (shaped : part.Shaped allowed) :
    piece.Shaped allowed := by
  cases calls with
  | inner => exact shaped
  | operand => exact shaped.2.2
  | left => exact shaped.2.2.1
  | right => exact shaped.2.2.2
  | first => exact shaped.2.2.1
  | second => exact shaped.2.2.2
  | value => exact shaped.2
  | callee => exact shaped.2.1
  | arguments => exact shaped.2.2
  | object => exact shaped.1
  | stored => exact shaped.2.2
  | owner => exact shaped.1
  | firstExpr => exact shaped.1
  | otherExprs => exact shaped.2
  | expression => exact shaped
  | print => exact shaped
  | initializer => exact shaped.2
  | block => exact shaped
  | @condition _ _ onFalse => cases onFalse <;> exact shaped.1
  | @onTrue _ _ onFalse =>
      cases onFalse with
      | none => exact shaped.2.1
      | some => exact shaped.2.1.1
  | onFalse => exact shaped.2.2.1
  | guard => exact shaped.1
  | round => exact shaped.2.1
  | function => exact shaped
  | returned => exact shaped
  | methods => exact shaped.2
  | body => exact shaped.2.2
  | firstMethod => exact shaped.1
  | otherMethods => exact shaped.2
  | firstStmt => exact shaped.1
  | otherStmts => exact shaped.2

/-- Every name that these scopes declare is initialized. -/
def Settled (scopes : List Scope) : Prop :=
  ∀ scope ∈ scopes, ∀ name : String, scope[name]? ≠ some false

theorem settled_nil : Settled [] :=
  nofun

theorem settled_cons {scope : Scope} {outer : List Scope} :
    Settled (scope :: outer) ↔ (∀ name : String, scope[name]? ≠ some false) ∧ Settled outer :=
  List.forall_mem_cons

theorem Settled.enter {scopes : List Scope} (settled : Settled scopes) :
    Settled (({} : Scope) :: scopes) :=
  settled_cons.2 ⟨fun name => by simp, settled⟩

theorem Settled.receiver {scopes : List Scope} (settled : Settled scopes) :
    Settled (receiverScope :: scopes) := by
  refine settled_cons.2 ⟨fun name found => ?_, settled⟩
  rw [receiverScope, Std.TreeMap.getElem?_insert] at found
  split at found
  · cases found
  · simp at found

/-- Behind the declaration of a name all names are initialized again. -/
theorem Settled.define {scopes : List Scope} (settled : Settled scopes) (name : String) :
    Settled (defined name (declared name scopes)) := by
  cases scopes with
  | nil => exact settled_nil
  | cons scope outer =>
      obtain ⟨here, outside⟩ := settled_cons.1 settled
      refine settled_cons.2 ⟨fun other found => ?_, outside⟩
      rw [Std.TreeMap.getElem?_insert] at found
      split at found
      · cases found
      · next different =>
          rw [Std.TreeMap.getElem?_insert, if_neg different] at found
          exact here other found

theorem Settled.parameters {analysis : Analysis} (settled : Settled analysis.scopes)
    (names : List Token) : Settled (analysis.parameters names).scopes := by
  induction names generalizing analysis with
  | nil => exact settled
  | cons name names ih =>
      apply ih
      rw [scopes_define, scopes_declare]
      exact settled.define name.lexeme

theorem Settled.behind {scopes : List Scope} (settled : Settled scopes) (stmt : Stmt Reference) :
    Settled (scopesBehind scopes stmt) := by
  cases stmt <;> first | exact settled | exact settled.define _

/-- Behind a call on no expression all names are initialized, except that an
initializer of a local variable is walked through before the variable is. -/
theorem Calls.settled {allowed : Token → Prop} {analysis inner : Analysis} {part piece : Part}
    (calls : analysis.Calls part inner piece) (shaped : part.Shaped allowed)
    (settled : Settled analysis.scopes) :
    Settled inner.scopes ∨ ∃ name initializer, part = .stmt (.varDecl name (some initializer)) ∧
      piece = .expr initializer ∧ analysis.scopes ≠ [] ∧
        inner.scopes = declared name.lexeme analysis.scopes := by
  cases calls with
  | @initializer name initializer =>
      rw [scopes_declare]
      by_cases top : analysis.scopes = []
      · rw [top]
        exact .inl settled_nil
      · exact .inr ⟨name, initializer, rfl, rfl, top, rfl⟩
  | block => exact .inl settled.enter
  | @onFalse _ onTrue =>
      rw [scopes_stmt _ shaped.2.1.1, scopes_expr]
      exact .inl (settled.behind onTrue)
  | function =>
      rw [scopes_define, scopes_declare]
      exact .inl (settled.define _)
  | returned =>
      rw [scopes_returning]
      exact .inl settled
  | @methods name =>
      have declared :
          Settled ((declare { analysis with inClass := true } name).define name).scopes := by
        rw [scopes_define, scopes_declare]
        exact settled.define _
      exact .inl declared.receiver
  | @body kind _ names =>
      have entered : Settled (enter { analysis with inFunction := some kind }).scopes :=
        settled.enter
      exact .inl (entered.parameters names)
  | otherMethods =>
      rw [scopes_function]
      exact .inl settled
  | @otherStmts first =>
      rw [scopes_stmt _ shaped.1]
      exact .inl (settled.behind first)
  | right | second | arguments | owner | otherExprs | onTrue | round =>
      rw [scopes_expr]
      exact .inl settled
  | _ => exact .inl settled

end Analysis

/-- A part stands in an expression. -/
def Part.Within (whole : Expr Reference) : Part → Prop
  | .expr value => value.nodes ⊆ whole.nodes
  | .exprs values => Expr.allNodes values ⊆ whole.nodes
  | _ => False

/-- What is called inside an expression stands in it, and in the same scopes. -/
theorem Analysis.Calls.within {analysis inner : Analysis} {part piece : Part}
    {whole : Expr Reference} (calls : analysis.Calls part inner piece)
    (within : part.Within whole) : piece.Within whole ∧ inner.scopes = analysis.scopes := by
  have inside {first second third : List (Expr Reference)} {own : Expr Reference}
      (all : own :: (first ++ second) ⊆ third) : first ⊆ third ∧ second ⊆ third :=
    List.append_subset.1 (List.cons_subset.1 all).2
  cases calls with
  | inner | operand | value | object => exact ⟨(List.cons_subset.1 within).2, rfl⟩
  | left | first | callee => exact ⟨(inside within).1, rfl⟩
  | right | second | arguments => exact ⟨(inside within).2, Analysis.scopes_expr _ _⟩
  | stored => exact ⟨(inside within).2, rfl⟩
  | owner => exact ⟨(inside within).1, Analysis.scopes_expr _ _⟩
  | firstExpr => exact ⟨(List.append_subset.1 within).1, rfl⟩
  | otherExprs => exact ⟨(List.append_subset.1 within).2, Analysis.scopes_expr _ _⟩
  | _ => exact within.elim

/-- A text that was analysed, with the distances that were known before. -/
structure Text where
  known : Distances
  program : List (Stmt Reference)

namespace Text

/-- The state in which the walk through a text starts. -/
def start (text : Text) : Analysis :=
  { distances := text.known }

/-- The state in which the walk through a text ends. -/
def last (text : Text) : Analysis :=
  text.start.stmts text.program

/-- The labels of the references of a text. -/
abbrev labels (text : Text) : List Reference :=
  (Stmt.allReferences text.program).map Prod.fst

/-- Walking through a text, the analysis arrives at a part in a state. -/
inductive Visits (text : Text) : Analysis → Part → Prop where
  | program : Visits text text.start (.stmts text.program)
  | call {analysis inner : Analysis} {part piece : Part} (visited : Visits text analysis part)
      (calls : analysis.Calls part inner piece) : Visits text inner piece

/-- A text whose references are new and all different, and that is read from
words and analysed without a fault. -/
structure Accepted (text : Text) : Prop where
  shaped : Stmt.AllShaped Token.WellSpelled text.program
  different : text.labels.Nodup
  fresh : ∀ reference ∈ text.labels, text.known[reference]? = none
  quiet : text.last.errors = []

/-- A text whose references are new and all different. -/
structure Numbered (text : Text) : Prop where
  different : text.labels.Nodup
  fresh : ∀ reference ∈ text.labels, text.known[reference]? = none

theorem Accepted.numbered {text : Text} (accepted : text.Accepted) : text.Numbered :=
  ⟨accepted.different, accepted.fresh⟩

/-- No other part of a text knows a distance of these references: none is known
before, and what is known behind is known in the end. -/
structure Separate (text : Text) (analysis : Analysis) (part : Part) : Prop where
  different : part.labels.Nodup
  subset : part.references ⊆ Stmt.allReferences text.program
  unknown : ∀ reference ∈ part.labels, analysis.distances[reference]? = none
  known : ∀ reference ∈ part.labels,
    text.last.distances[reference]? = (analysis.walk part).distances[reference]?

/-- What holds where the walk through an accepted text arrives. -/
structure Arrives (text : Text) (analysis : Analysis) (part : Part) : Prop where
  shaped : part.Shaped Token.WellSpelled
  different : part.labels.Nodup
  subset : part.references ⊆ Stmt.allReferences text.program
  quiet : (analysis.walk part).errors = []
  unknown : ∀ reference ∈ part.labels, analysis.distances[reference]? = none
  known : ∀ reference ∈ part.labels,
    text.last.distances[reference]? = (analysis.walk part).distances[reference]?

variable {text : Text} {analysis : Analysis} {part : Part}

open Analysis

theorem Separate.call {inner : Analysis} {piece : Part} (separate : text.Separate analysis part)
    (calls : analysis.Calls part inner piece) : text.Separate inner piece := by
  obtain ⟨before, behind, earlier, later, perm⟩ := calls.adds
  have different := separate.different
  rw [← (perm.map Prod.fst).nodup_iff, List.map_append, List.map_append, List.nodup_append,
    List.nodup_append] at different
  obtain ⟨-, ⟨own, -, apart⟩, apart'⟩ := different
  have inside : piece.references ⊆ part.references := fun _ member =>
    perm.mem_iff.1 (List.mem_append_right _ (List.mem_append_left _ member))
  have upper (reference : Reference) (member : reference ∈ piece.references.map Prod.fst) :
      reference ∈ part.labels :=
    List.map_subset _ inside member
  refine ⟨own, List.Subset.trans inside separate.subset, ?_, ?_⟩
  · intro reference member
    rw [earlier.distances reference fun name among => ?_]
    · exact separate.unknown reference (upper reference member)
    · exact apart' reference (List.mem_map_of_mem among) reference
        (List.mem_append_left _ member) rfl
  · intro reference member
    rw [separate.known reference (upper reference member),
      later.distances reference fun name among => ?_]
    exact apart reference member reference (List.mem_map_of_mem among) rfl

/-- Where the walk through a numbered text arrives, the references are separate from
all others. -/
theorem Visits.separate (numbered : text.Numbered) (visited : text.Visits analysis part) :
    text.Separate analysis part := by
  induction visited with
  | program => exact ⟨numbered.different, List.Subset.refl _, numbered.fresh, fun _ _ => rfl⟩
  | call _ calls ih => exact ih.call calls

theorem Arrives.call {inner : Analysis} {piece : Part} (arrives : text.Arrives analysis part)
    (calls : analysis.Calls part inner piece) : text.Arrives inner piece := by
  have separate : text.Separate inner piece :=
    Separate.call ⟨arrives.different, arrives.subset, arrives.unknown, arrives.known⟩ calls
  refine ⟨calls.shaped arrives.shaped, separate.different, separate.subset, ?_,
    separate.unknown, separate.known⟩
  obtain ⟨_, _, _, later, _⟩ := calls.adds
  have prefixed := later.errors
  rw [arrives.quiet] at prefixed
  exact List.prefix_nil.1 prefixed

theorem Visits.arrives (accepted : text.Accepted) (visited : text.Visits analysis part) :
    text.Arrives analysis part := by
  induction visited with
  | program =>
      exact ⟨accepted.shaped, accepted.different, List.Subset.refl _, accepted.quiet,
        accepted.fresh, fun _ _ => rfl⟩
  | call _ calls ih => exact ih.call calls

/-! ## What is recorded -/

/-- A distance that was not known before is that of the innermost scope. -/
theorem distances_record {reference : Reference} {name : Token}
    (unknown : analysis.distances[reference]? = none) :
    (analysis.record reference name).distances[reference]? = analysis.distance? name.lexeme := by
  unfold record
  split
  · next distance found =>
      rw [found]
      exact Std.TreeMap.getElem?_insert_self
  · next none => rw [none, unknown]

theorem distance?_congr {first second : Analysis} (same : first.scopes = second.scopes)
    (name : String) : first.distance? name = second.distance? name := by
  rw [distance?, distance?, same]

theorem not_quiet_report {fault : ScopeFault} {place : Token} :
    (analysis.report fault place).errors ≠ [] := by
  simp [report]

/-- A variable that is used is not in its own initializer, and its distance is
known in the end. -/
theorem Visits.variable (accepted : text.Accepted) {reference : Reference} {name : Token}
    (visited : text.Visits analysis (.expr (.variable reference name))) :
    analysis.isUninitialized name.lexeme = false ∧
      text.last.distances[reference]? = analysis.distance? name.lexeme := by
  have arrives := visited.arrives accepted
  have member : reference ∈ Part.labels (.expr (.variable reference name)) :=
    List.mem_singleton_self reference
  have quiet := arrives.quiet
  have known := arrives.known reference member
  rw [walk, Analysis.expr] at quiet known
  by_cases uninitialized : analysis.isUninitialized name.lexeme = true
  · rw [if_pos uninitialized] at quiet
    have adds := Adds.record (analysis.report .readInOwnInitializer name) reference name
    have prefixed := adds.errors
    rw [quiet] at prefixed
    exact absurd (List.prefix_nil.1 prefixed) not_quiet_report
  · rw [if_neg uninitialized] at known
    exact ⟨by simpa using uninitialized,
      known.trans (distances_record (arrives.unknown reference member))⟩

/-- The distance of a variable that is assigned is known in the end. -/
theorem Visits.assign (accepted : text.Accepted) {reference : Reference} {name : Token}
    {value : Expr Reference}
    (visited : text.Visits analysis (.expr (.assign reference name value))) :
    text.last.distances[reference]? = analysis.distance? name.lexeme := by
  have arrives := visited.arrives accepted
  have member : reference ∈ Part.labels (.expr (.assign reference name value)) :=
    List.mem_map_of_mem (List.mem_append_right _ (List.mem_singleton_self (reference, name)))
  have absent : ∀ other, (reference, other) ∉ value.references := by
    intro other among
    have different := arrives.different
    rw [Part.labels, Part.references, Expr.references, List.map_append,
      List.nodup_append] at different
    exact different.2.2 reference (List.mem_map_of_mem among) reference
      (List.mem_singleton_self _) rfl
  have unknown : (analysis.expr value).distances[reference]? = none := by
    rw [(adds_expr analysis value).distances reference absent]
    exact arrives.unknown reference member
  rw [arrives.known reference member, walk, Analysis.expr, distances_record unknown]
  exact distance?_congr (scopes_expr analysis value) name.lexeme

/-- The distance of `this` is known in the end. -/
theorem Visits.this (accepted : text.Accepted) {reference : Reference} {keyword : Token}
    (visited : text.Visits analysis (.expr (.this reference keyword))) :
    text.last.distances[reference]? = analysis.distance? keyword.lexeme := by
  have arrives := visited.arrives accepted
  have member : reference ∈ Part.labels (.expr (.this reference keyword)) :=
    List.mem_singleton_self reference
  have quiet := arrives.quiet
  have known := arrives.known reference member
  rw [walk, Analysis.expr] at quiet known
  by_cases inside : analysis.inClass = true
  · rw [if_pos inside] at known
    exact known.trans (distances_record (arrives.unknown reference member))
  · rw [if_neg inside] at quiet
    exact absurd quiet not_quiet_report

/-! ## What is initialized -/

/-- In this state the walk goes through the initializer of a local variable. -/
def Initializes (text : Text) (analysis : Analysis) (name : Token)
    (initializer : Expr Reference) : Prop :=
  ∃ declaring, text.Visits declaring (.stmt (.varDecl name (some initializer))) ∧
    declaring.scopes ≠ [] ∧ Settled declaring.scopes ∧
      analysis.scopes = declared name.lexeme declaring.scopes

/-- Wherever the walk arrives all names are initialized, but for a local
variable inside its own initializer. -/
theorem Visits.settled (accepted : text.Accepted) (visited : text.Visits analysis part) :
    Settled analysis.scopes ∨
      ∃ name initializer, text.Initializes analysis name initializer ∧
        part.Within initializer := by
  induction visited with
  | program => exact .inl settled_nil
  | @call analysis inner part piece visited calls ih =>
      rcases ih with settled | ⟨name, initializer, ⟨declaring, found, some, before, same⟩, within⟩
      · rcases calls.settled (visited.arrives accepted).shaped settled with
          inside | ⟨name, initializer, rfl, rfl, some, same⟩
        · exact .inl inside
        · exact .inr ⟨name, initializer, ⟨analysis, visited, some, settled, same⟩,
            List.Subset.refl _⟩
      · obtain ⟨inside, scopes⟩ := calls.within within
        exact .inr ⟨name, initializer, ⟨declaring, found, some, before, scopes.trans same⟩, inside⟩

/-- The innermost scope that declares a name is the one at its distance. -/
theorem getElem?_of_distance? {name : String} {distance : Nat}
    (found : analysis.distance? name = some distance) :
    ∃ scope, analysis.scopes[distance]? = some scope ∧ scope.contains name = true := by
  obtain ⟨inside, holds, _⟩ := List.findIdx?_eq_some_iff_getElem.1 found
  exact ⟨_, List.getElem?_eq_getElem inside, holds⟩

theorem initialized_of_ne {scope : Scope} {name : String} (holds : scope.contains name = true)
    (other : scope[name]? ≠ some false) : scope[name]? = some true := by
  have found := Std.TreeMap.isSome_getElem?_eq_contains.trans holds
  cases same : scope[name]? with
  | none =>
      rw [same] at found
      cases found
  | some flag =>
      cases flag with
      | true => rfl
      | false => exact absurd same other

/-- The scope at the distance of a name holds it as initialized, unless it is
that of a local variable whose initializer the walk is in. -/
theorem Visits.initialized (accepted : text.Accepted) (visited : text.Visits analysis part)
    {name : String} {distance : Nat} (found : analysis.distance? name = some distance) :
    (∃ scope, analysis.scopes[distance]? = some scope ∧ scope[name]? = some true) ∨
      (distance = 0 ∧ analysis.isUninitialized name = true ∧ ∃ token initializer,
        text.Initializes analysis token initializer ∧ part.Within initializer ∧
          token.lexeme = name) := by
  obtain ⟨scope, here, holds⟩ := getElem?_of_distance? found
  rcases visited.settled accepted with settled | ⟨token, initializer, initializes, within⟩
  · have initialized := settled scope (List.mem_of_getElem? here) name
    exact .inl ⟨scope, here, initialized_of_ne holds initialized⟩
  · obtain ⟨declaring, declares, some, settled, same⟩ := initializes
    cases outside : declaring.scopes with
    | nil => exact absurd outside some
    | cons first outer =>
        have inner := same
        rw [outside] at inner settled
        obtain ⟨atFirst, atOuter⟩ := settled_cons.1 settled
        rw [declared] at inner
        rw [inner] at here
        cases distance with
        | succ distance =>
            have listed : scope ∈ outer := List.mem_of_getElem? here
            refine .inl ⟨scope, ?_, initialized_of_ne holds (atOuter scope listed name)⟩
            rw [inner]
            exact here
        | zero =>
            cases here
            by_cases own : name = token.lexeme
            · refine .inr ⟨rfl, ?_, token, initializer, ⟨declaring, declares, some, ?_, same⟩,
                within, own.symm⟩
              · rw [isUninitialized, inner, own]
                simp
              · rwa [outside]
            · refine .inl ⟨_, by rw [inner]; rfl, initialized_of_ne holds fun unset => ?_⟩
              rw [Bindings.getElem?_insert, if_neg own] at unset
              exact atFirst name unset

end Text

/-- The scope of a function holds its parameters, all of them initialized. -/
theorem Analysis.scopes_parameters {analysis : Analysis} {scope : Scope} {outer : List Scope}
    (same : analysis.scopes = scope :: outer) (names : List Token) :
    ∃ inner : Scope, (analysis.parameters names).scopes = inner :: outer ∧
      ∀ name : String, inner[name]? =
        if name ∈ names.map Token.lexeme then some true else scope[name]? := by
  induction names generalizing analysis scope with
  | nil => exact ⟨scope, same, fun name => by simp⟩
  | cons first names ih =>
      have next : ((analysis.declare first).define first).scopes =
          (scope.insert first.lexeme false).insert first.lexeme true :: outer := by
        rw [scopes_define, scopes_declare, same, declared, defined]
      obtain ⟨inner, found, held⟩ := ih next
      refine ⟨inner, found, fun name => ?_⟩
      rw [held name, List.map_cons]
      by_cases later : name ∈ names.map Token.lexeme
      · rw [if_pos later, if_pos (List.mem_cons_of_mem _ later)]
      · rw [if_neg later, Bindings.getElem?_insert, Bindings.getElem?_insert]
        by_cases here : name = first.lexeme
        · rw [if_pos here, if_pos (here ▸ List.mem_cons_self)]
        · rw [if_neg here, if_neg here, if_neg fun member =>
            (List.mem_cons.1 member).elim here later]

/-! ## Declared names -/

theorem Scope.contains_insert (scope : Scope) (name key : String) (flag : Bool) :
    (scope.insert name flag).contains key = true ↔ key = name ∨ scope.contains key = true := by
  rw [← Std.TreeMap.isSome_getElem?_eq_contains, ← Std.TreeMap.isSome_getElem?_eq_contains,
    Bindings.getElem?_insert]
  by_cases same : key = name
  · simp [same]
  · simp [same]

theorem Analysis.adds_walk (analysis : Analysis) (part : Part) :
    Adds part.references analysis (analysis.walk part) := by
  cases part with
  | expr value => exact adds_expr analysis value
  | exprs values => exact adds_exprs analysis values
  | stmt statement => exact adds_stmt analysis statement
  | function kind declaration => exact adds_function analysis kind declaration
  | methods members => exact adds_methods analysis members
  | stmts statements => exact adds_stmts analysis statements

theorem Analysis.contains_eq_false_of_declare {analysis : Analysis} {name : Token}
    (quiet : (analysis.declare name).errors = []) {scope : Scope} {outer : List Scope}
    (same : analysis.scopes = scope :: outer) : scope.contains name.lexeme = false := by
  rw [declare, same] at quiet
  dsimp only at quiet
  split at quiet
  · exact (Text.not_quiet_report quiet).elim
  · next absent => exact eq_false_of_ne_true absent

/-- The parameters of a function are all different. -/
theorem Analysis.nodup_of_parameters {analysis : Analysis} {names : List Token}
    (quiet : (analysis.parameters names).errors = []) {scope : Scope} {outer : List Scope}
    (same : analysis.scopes = scope :: outer) :
    (∀ name ∈ names, scope.contains name.lexeme = false) ∧ (names.map Token.lexeme).Nodup := by
  induction names generalizing analysis scope with
  | nil => exact ⟨fun _ member => absurd member List.not_mem_nil, List.nodup_nil⟩
  | cons first names ih =>
      have next : ((analysis.declare first).define first).scopes =
          (scope.insert first.lexeme false).insert first.lexeme true :: outer := by
        rw [scopes_define, scopes_declare, same, declared, defined]
      obtain ⟨others, different⟩ := ih quiet next
      have later : Adds [] (analysis.declare first) (analysis.parameters (first :: names)) :=
        (Adds.define _ first).trans (.parameters _ names)
      have absent := contains_eq_false_of_declare (later.quiet quiet) same
      have apart (name : Token) (member : name ∈ names) :
          name.lexeme ≠ first.lexeme ∧ scope.contains name.lexeme = false := by
        have missing := others name member
        rw [← Bool.not_eq_true, Scope.contains_insert, Scope.contains_insert] at missing
        exact ⟨fun equal => missing (.inl equal),
          eq_false_of_ne_true fun held => missing (.inr (.inr held))⟩
      refine ⟨List.forall_mem_cons.2 ⟨absent, fun name member => (apart name member).2⟩,
        List.nodup_cons.2 ⟨fun among => ?_, different⟩⟩
      obtain ⟨name, member, equal⟩ := List.mem_map.1 among
      exact (apart name member).1 equal

/-- The name that a statement declares. -/
def Stmt.declared? {ρ : Type} : Stmt ρ → Option Token
  | varDecl name _ => some name
  | funDecl declaration => some declaration.name
  | classDecl name _ => some name
  | _ => none

/-! ## Several texts -/

/-- Walking through one of these texts, an accepted one, the analysis arrives at
a part. -/
def Visited (texts : List Text) (analysis : Analysis) (part : Part) : Prop :=
  ∃ text ∈ texts, text.Accepted ∧ text.Visits analysis part

/-- The distances of the references of these texts are the recorded ones. -/
def Resolved (distances : Distances) (texts : List Text) : Prop :=
  ∀ text ∈ texts, ∀ reference ∈ text.labels,
    distances[reference]? = text.last.distances[reference]?

namespace Visited

variable {texts more : List Text} {analysis : Analysis} {part : Part}

theorem call {inner : Analysis} {piece : Part} (visited : Visited texts analysis part)
    (calls : analysis.Calls part inner piece) : Visited texts inner piece := by
  obtain ⟨text, listed, accepted, visits⟩ := visited
  exact ⟨text, listed, accepted, visits.call calls⟩

theorem shaped (visited : Visited texts analysis part) : part.Shaped Token.WellSpelled := by
  obtain ⟨text, _, accepted, visits⟩ := visited
  exact (visits.arrives accepted).shaped

theorem mono (visited : Visited texts analysis part) (subset : texts ⊆ more) :
    Visited more analysis part := by
  obtain ⟨text, listed, found⟩ := visited
  exact ⟨text, subset listed, found⟩

/-- The distance of a reference is the one that is known at the end of its
text. -/
theorem recorded {distances : Distances} {text : Text} {reference : Reference}
    (resolved : Resolved distances texts) (listed : text ∈ texts) (accepted : text.Accepted)
    (visits : text.Visits analysis part) (member : reference ∈ part.labels) :
    distances[reference]? = text.last.distances[reference]? :=
  resolved text listed reference (List.map_subset _ (visits.arrives accepted).subset member)

/-- A variable that is used has the distance of its name. -/
theorem distance_variable {distances : Distances} {reference : Reference} {name : Token}
    (visited : Visited texts analysis (.expr (.variable reference name)))
    (resolved : Resolved distances texts) :
    distances[reference]? = analysis.distance? name.lexeme := by
  obtain ⟨text, listed, accepted, visits⟩ := visited
  rw [recorded resolved listed accepted visits (List.mem_singleton_self _)]
  exact (visits.variable accepted).2

/-- `this` has the distance of its name. -/
theorem distance_this {distances : Distances} {reference : Reference} {keyword : Token}
    (visited : Visited texts analysis (.expr (.this reference keyword)))
    (resolved : Resolved distances texts) :
    distances[reference]? = analysis.distance? keyword.lexeme := by
  obtain ⟨text, listed, accepted, visits⟩ := visited
  rw [recorded resolved listed accepted visits (List.mem_singleton_self _)]
  exact visits.this accepted

/-- A variable that is assigned has the distance of its name. -/
theorem distance_assign {distances : Distances} {reference : Reference} {name : Token}
    {value : Expr Reference}
    (visited : Visited texts analysis (.expr (.assign reference name value)))
    (resolved : Resolved distances texts) :
    distances[reference]? = analysis.distance? name.lexeme := by
  obtain ⟨text, listed, accepted, visits⟩ := visited
  have member : reference ∈ Part.labels (.expr (.assign reference name value)) :=
    List.mem_map_of_mem (List.mem_append_right _ (List.mem_singleton_self (reference, name)))
  rw [recorded resolved listed accepted visits member]
  exact visits.assign accepted

/-- No fault is known where the walk arrives. -/
theorem quiet (visited : Visited texts analysis part) : analysis.errors = [] := by
  obtain ⟨text, _, accepted, visits⟩ := visited
  exact (Analysis.adds_walk analysis part).quiet (visits.arrives accepted).quiet

/-- A name that a statement declares is not declared in the same scope before. -/
theorem undeclared {stmt : Stmt Reference} {name : Token}
    (visited : Visited texts analysis (.stmt stmt)) (declares : stmt.declared? = some name)
    {scope : Scope} {outer : List Scope} (same : analysis.scopes = scope :: outer) :
    scope.contains name.lexeme = false := by
  cases stmt with
  | varDecl token initializer =>
      cases declares
      cases initializer with
      | some initializer =>
          exact Analysis.contains_eq_false_of_declare (visited.call .initializer).quiet same
      | none =>
          obtain ⟨text, _, accepted, visits⟩ := visited
          have last := (visits.arrives accepted).quiet
          have defines : Analysis.Adds [] _ ((analysis.declare name).define name) :=
            .define _ name
          exact Analysis.contains_eq_false_of_declare (defines.quiet last) same
  | funDecl declaration =>
      cases declares
      have last := (visited.call .function).quiet
      have defines : Analysis.Adds [] _
          ((analysis.declare declaration.name).define declaration.name) := .define _ _
      exact Analysis.contains_eq_false_of_declare (defines.quiet last) same
  | classDecl token members =>
      cases declares
      have inside : ({ analysis with inClass := true } : Analysis).scopes = scope :: outer := same
      have last := (visited.call .methods).quiet
      have defines : Analysis.Adds [] _
          (({ analysis with inClass := true }.declare name).define name) := .define _ name
      exact Analysis.contains_eq_false_of_declare (defines.quiet last) inside
  | _ => cases declares

/-- A function that has been taken from its place in a class was walked through
in the scopes of its class. -/
theorem method {members : List (FunctionDecl Reference)} {method : FunctionDecl Reference}
    (visited : Visited texts analysis (.methods members)) (member : method ∈ members) :
    ∃ inner, Visited texts inner (.function .method method) ∧
      inner.scopes = analysis.scopes := by
  induction members generalizing analysis with
  | nil => cases member
  | cons first rest ih =>
      rcases List.mem_cons.1 member with rfl | member
      · exact ⟨analysis, visited.call .firstMethod, rfl⟩
      · obtain ⟨inner, found, same⟩ := ih (visited.call .otherMethods) member
        exact ⟨inner, found, same.trans (Analysis.scopes_function ..)⟩

end Visited

/-- At the top level no scope is open, and none is opened for what follows. -/
theorem Analysis.scopes_top {analysis : Analysis} {stmt : Stmt Reference}
    (visited : Visited texts analysis (.stmt stmt)) (top : analysis.scopes = []) :
    (analysis.stmt stmt).scopes = [] := by
  rw [scopes_stmt analysis visited.shaped, top]
  cases stmt <;> rfl

end Lox
