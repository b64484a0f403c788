/-
# The walk goes from site to site

The analysis keeps what stands around a place in a state that it changes on its way
(`Analysis.Reflects`).  From one place to a later one it reports what is wrong with the
sites in between and records the distances of those that are bound, and nothing else
(`Analysis.Tells`).  What it has reported before makes no difference.
-/

import Mathlib.Data.List.Forall2
import Lox.Proofs.Context
import Lox.Proofs.Sites
import Lox.Proofs.Visits

namespace Lox

/-- A scope of the analysis declares these names. -/
def Scope.Declares (scope : Scope) (names : List String) : Prop :=
  ∀ name, scope.contains name = true ↔ name ∈ names

theorem Scope.declares_empty : Scope.Declares {} [] :=
  fun name => by simp

namespace Scope.Declares

variable {scope : Scope} {names : List String} {name : String}

theorem insert (declares : scope.Declares names) (name : String) (flag : Bool) :
    Scope.Declares (scope.insert name flag) (names ++ [name]) := by
  intro other
  rw [Scope.contains_insert, declares other, List.mem_append, List.mem_singleton, or_comm]

/-- A name that is declared may be initialized. -/
theorem insert_again (declares : scope.Declares (names ++ [name])) (flag : Bool) :
    Scope.Declares (scope.insert name flag) (names ++ [name]) := by
  intro other
  rw [Scope.contains_insert, declares other, List.mem_append, List.mem_singleton]
  exact or_iff_right_of_imp .inr

end Scope.Declares

namespace Analysis

variable {inner : List Scope} {outer : List (List String)} {name : String}

/-- A declaration adds its name to those of the innermost scope. -/
theorem declared_declares (scopes : List.Forall₂ Scope.Declares inner outer) (name : String) :
    List.Forall₂ Scope.Declares (declared name inner) (outer.modifyHead (· ++ [name])) := by
  cases scopes with
  | nil => exact .nil
  | cons declares rest => exact .cons (declares.insert name false) rest

/-- An initializer adds no name. -/
theorem defined_declares
    (scopes : List.Forall₂ Scope.Declares inner (outer.modifyHead (· ++ [name]))) :
    List.Forall₂ Scope.Declares (defined name inner) (outer.modifyHead (· ++ [name])) := by
  cases outer with
  | nil =>
      cases scopes
      exact .nil
  | cons names rest =>
      cases scopes with
      | cons declares others => exact .cons (declares.insert_again true) others

/-- Behind a declaration the declared name is not initialized, and else what was not. -/
theorem isUninitialized_declare (analysis : Analysis) (name : Token) (other : String) :
    (analysis.declare name).isUninitialized other = true ↔
      analysis.scopes ≠ [] ∧ (other = name.lexeme ∨ analysis.isUninitialized other = true) := by
  rw [isUninitialized, isUninitialized, scopes_declare]
  cases analysis.scopes with
  | nil => simp [declared]
  | cons scope rest =>
      simp only [declared, Bindings.getElem?_insert]
      split <;> simp_all

/-- Behind an initializer the name is initialized. -/
theorem isUninitialized_define (analysis : Analysis) (name : Token) (other : String) :
    (analysis.define name).isUninitialized other = true ↔
      other ≠ name.lexeme ∧ analysis.isUninitialized other = true := by
  rw [isUninitialized, isUninitialized, scopes_define]
  cases analysis.scopes with
  | nil => simp [defined]
  | cons scope rest =>
      simp only [defined, Bindings.getElem?_insert]
      split <;> simp_all

/-- A class leaves its name behind. -/
theorem scopes_classDecl (analysis : Analysis) (name : Token)
    (members : List (FunctionDecl Reference)) :
    (analysis.stmt (.classDecl name members)).scopes =
      ((analysis.declare name).define name).scopes := by
  have same : (analysis.stmt (.classDecl name members)).scopes =
      ((analysis.enterClass name).methods members).scopes.tail := rfl
  rw [same, scopes_methods, scopes_define, scopes_declare]
  exact (scopes_define _ name).trans (congrArg _ (scopes_declare _ name))

end Analysis

/-- The distance at which a site is bound, if it is. -/
def Site.distance? (site : Site) : Option Nat :=
  if site.isStray then none
  else site.around.scopes.findIdx? fun names => site.token.lexeme ∈ names

/-- The distances after the reference of a site is recorded, if it is bound. -/
def Site.record (distances : Distances) (site : Site) : Distances :=
  match site.reference? with
  | none => distances
  | some (reference, _) =>
    match site.distance? with
    | some distance => distances.insert reference distance
    | none => distances

namespace Analysis

/-- The state of an analysis is what stands around a place.  Whether a name is
initialized, the analysis asks of the innermost scope only. -/
structure Reflects (analysis : Analysis) (around : Surroundings) : Prop where
  scopes : List.Forall₂ Scope.Declares analysis.scopes around.scopes
  uninitialized : ∀ name, analysis.isUninitialized name = true ↔
    around.initializing = some name ∧ around.scopes ≠ []
  inFunction : analysis.inFunction.isSome = around.inFunction
  inClass : analysis.inClass = around.inClass

/-- From an earlier state to a later one, these sites have been dealt with. -/
structure Tells (sites : List Site) (earlier later : Analysis) : Prop where
  errors : later.errors = earlier.errors ++ sites.filterMap Site.error?
  distances : later.distances = sites.foldl Site.record earlier.distances

namespace Tells

variable {sites more : List Site} {first second third : Analysis}

theorem refl (analysis : Analysis) : Tells [] analysis analysis :=
  ⟨(List.append_nil _).symm, rfl⟩

theorem append (before : Tells sites first second) (behind : Tells more second third) :
    Tells (sites ++ more) first third :=
  ⟨by rw [behind.errors, before.errors, List.filterMap_append, List.append_assoc],
    by rw [behind.distances, before.distances, List.foldl_append]⟩

theorem cons {site : Site} (before : Tells [site] first second)
    (behind : Tells sites second third) : Tells (site :: sites) first third :=
  before.append behind

/-- Only the errors and the distances are told. -/
theorem congr {later : Analysis} (tells : Tells sites first second)
    (errors : later.errors = second.errors) (distances : later.distances = second.distances) :
    Tells sites first later :=
  ⟨errors.trans tells.errors, distances.trans tells.distances⟩

end Tells

namespace Reflects

variable {analysis later : Analysis} {around : Surroundings} {name : Token}

theorem congr (reflects : analysis.Reflects around) (scopes : later.scopes = analysis.scopes)
    (inFunction : later.inFunction = analysis.inFunction)
    (inClass : later.inClass = analysis.inClass) : later.Reflects around := by
  refine ⟨scopes ▸ reflects.scopes, fun name => ?_, inFunction ▸ reflects.inFunction,
    inClass ▸ reflects.inClass⟩
  rw [isUninitialized, scopes]
  exact reflects.uninitialized name

/-- Behind an expression stands what stands in front of it. -/
theorem expr (reflects : analysis.Reflects around) (expr : Expr Reference) :
    (analysis.expr expr).Reflects around :=
  have context := InContext.expr analysis expr
  reflects.congr (scopes_expr analysis expr) context.inFunction context.inClass

/-- The distance of a name is that of the innermost scope around the place that declares
it. -/
theorem distance?_eq (reflects : analysis.Reflects around) (name : String) :
    analysis.distance? name = around.scopes.findIdx? fun names => name ∈ names := by
  rw [distance?]
  have scopes := reflects.scopes
  generalize analysis.scopes = inner at scopes
  generalize around.scopes = outer at scopes
  induction scopes with
  | nil => rfl
  | @cons scope names _ _ declares _ ih =>
      have same : scope.contains name = decide (name ∈ names) := by
        rw [Bool.eq_iff_iff, decide_eq_true_iff]
        exact declares name
      rw [List.findIdx?_cons, List.findIdx?_cons, same, ih]

/-- The top level is around a place if and only if no scope is open. -/
theorem scopes_eq_nil_iff (reflects : analysis.Reflects around) :
    analysis.scopes = [] ↔ around.scopes = [] := by
  rw [← List.length_eq_zero_iff, reflects.scopes.length_eq, List.length_eq_zero_iff]

/-- In a scope that is opened stands what it opens with. -/
theorem enter (reflects : analysis.Reflects around) {scope : Scope} {names : List String}
    (declares : scope.Declares names) (settled : ∀ name : String, scope[name]? ≠ some false) :
    (analysis.enter scope).Reflects (around.inScope names) := by
  refine ⟨.cons declares reflects.scopes, fun name => ?_, reflects.inFunction, reflects.inClass⟩
  simp [isUninitialized, Analysis.enter, Surroundings.inScope, settled name]

theorem enterEmpty (reflects : analysis.Reflects around) : analysis.enter.Reflects around.inScope :=
  reflects.enter Scope.declares_empty fun name => by simp

theorem enterFunction (reflects : analysis.Reflects around) (kind : FunctionKind) :
    (Analysis.enter { analysis with inFunction := some kind }).Reflects around.inFunctionScope :=
  have entered := reflects.enterEmpty
  ⟨entered.scopes, entered.uninitialized, rfl, entered.inClass⟩

/-- Behind a return stands what stands in front of it. -/
theorem returning (reflects : analysis.Reflects around) (keyword : Token) :
    (analysis.returning keyword).Reflects around :=
  have context := InContext.returning analysis keyword
  reflects.congr (scopes_returning analysis keyword) context.inFunction context.inClass

/-- A variable that is declared is in its own initializer. -/
theorem declare (reflects : analysis.Reflects around) (plain : around.initializing = none)
    (name : Token) : (analysis.declare name).Reflects (around.inInitializer name.lexeme) := by
  have context := InContext.declare analysis name
  refine ⟨?_, fun other => ?_, context.inFunction ▸ reflects.inFunction,
    context.inClass ▸ reflects.inClass⟩
  · rw [scopes_declare]
    exact declared_declares reflects.scopes name.lexeme
  · have settled : analysis.isUninitialized other ≠ true := by
      rw [Ne, reflects.uninitialized, plain]
      rintro ⟨initializing, _⟩
      cases initializing
    have top : around.scopes.modifyHead (· ++ [name.lexeme]) = [] ↔ around.scopes = [] := by
      cases around.scopes <;> simp
    rw [isUninitialized_declare, Ne, reflects.scopes_eq_nil_iff, or_iff_left settled, and_comm]
    simp only [Surroundings.inInitializer, Surroundings.behind, Option.some.injEq, Ne, top,
      eq_comm]

/-- Behind its initializer a variable is initialized. -/
theorem define (reflects : analysis.Reflects (around.inInitializer name.lexeme))
    (plain : around.initializing = none) :
    (analysis.define name).Reflects (around.behind [name.lexeme]) := by
  have context := InContext.define analysis name
  refine ⟨?_, fun other => ?_, context.inFunction ▸ reflects.inFunction,
    context.inClass ▸ reflects.inClass⟩
  · rw [scopes_define]
    exact defined_declares reflects.scopes
  · rw [isUninitialized_define, reflects.uninitialized]
    simp only [Surroundings.inInitializer, Surroundings.behind, Option.some.injEq, plain]
    constructor
    · rintro ⟨different, same, _⟩
      exact absurd same.symm different
    · rintro ⟨initializing, _⟩
      cases initializing

/-- Behind a declaration the name is declared. -/
theorem declareAndDefine (reflects : analysis.Reflects around)
    (plain : around.initializing = none) (name : Token) :
    ((analysis.declare name).define name).Reflects (around.behind [name.lexeme]) :=
  (reflects.declare plain name).define plain

theorem enterClass (reflects : analysis.Reflects around) (plain : around.initializing = none)
    (name : Token) :
    (analysis.enterClass name).Reflects (around.behind [name.lexeme]).inClassScope := by
  have inside : Reflects { analysis with inClass := true } { around with inClass := true } :=
    ⟨reflects.scopes, reflects.uninitialized, reflects.inFunction, rfl⟩
  exact (inside.declareAndDefine plain name).enter (Scope.declares_empty.insert "this" true)
    (settled_cons.1 settled_nil.receiver).1

/-- Behind a function stands what stands in front of it. -/
theorem function (reflects : analysis.Reflects around) (kind : FunctionKind)
    (declaration : FunctionDecl Reference) :
    (analysis.function kind declaration).Reflects around :=
  have context := InContext.function analysis kind declaration
  reflects.congr (scopes_function analysis kind declaration) context.inFunction context.inClass

/-- Behind a statement the names are declared that it declares. -/
theorem stmt {analysis : Analysis} {around : Surroundings} (reflects : analysis.Reflects around)
    (plain : around.initializing = none) (stmt : Stmt Reference) :
    (analysis.stmt stmt).Reflects (around.behind stmt.declaredNames) := by
  cases stmt with
  | expression value => exact around.behind_nil.symm ▸ reflects.expr value
  | print value => exact around.behind_nil.symm ▸ reflects.expr value
  | varDecl name initializer =>
      cases initializer with
      | none => exact reflects.declareAndDefine plain name
      | some initializer => exact ((reflects.declare plain name).expr initializer).define plain
  | block body =>
      have context := InContext.stmts analysis.enter body
      exact around.behind_nil.symm ▸
        reflects.congr (tail_stmts analysis.enter body) context.inFunction context.inClass
  | conditional condition onTrue onFalse =>
      have behind := (reflects.expr condition).stmt plain onTrue
      cases onFalse with
      | none => exact behind
      | some onFalse => exact around.behind_behind _ _ ▸ behind.stmt plain onFalse
  | whileLoop condition body => exact (reflects.expr condition).stmt plain body
  | funDecl declaration =>
      exact (reflects.declareAndDefine plain declaration.name).function .function declaration
  | returning keyword value =>
      have behind := reflects.returning keyword
      cases value with
      | none => exact around.behind_nil.symm ▸ behind
      | some value => exact around.behind_nil.symm ▸ behind.expr value
  | classDecl name members =>
      have context := InContext.stmt analysis (.classDecl name members)
      have named := InContext.trans (.declare analysis name) (.define _ name)
      exact (reflects.declareAndDefine plain name).congr (scopes_classDecl analysis name members)
        (context.inFunction.trans named.inFunction.symm)
        (context.inClass.trans named.inClass.symm)

end Reflects

/-! ## One site -/

namespace Tells

variable {analysis later : Analysis} {around : Surroundings} {site : Site}

theorem single (errors : later.errors = analysis.errors ++ site.error?.toList)
    (distances : later.distances = site.record analysis.distances) :
    Tells [site] analysis later := by
  refine ⟨?_, distances⟩
  rw [errors, List.filterMap_cons, List.filterMap_nil]
  cases site.error? <;> rfl

theorem declare (scopes : List.Forall₂ Scope.Declares analysis.scopes around.scopes)
    (name : Token) : Tells [⟨.declaration, name, around⟩] analysis (analysis.declare name) := by
  obtain ⟨inner, _, _, _, _⟩ := analysis
  obtain ⟨outer, _, _, _⟩ := around
  dsimp only at scopes
  cases scopes with
  | nil => exact .single (List.append_nil _).symm rfl
  | @cons scope names _ _ declares _ =>
      apply single
      · by_cases again : scope.contains name.lexeme = true
        · have among := (declares _).1 again
          simp [Analysis.declare, again, report, Site.error?, Site.fault?, among]
        · have absent := mt (declares _).2 again
          simp [Analysis.declare, again, Site.error?, Site.fault?, absent]
      · simp only [Analysis.declare]
        split <;> rfl

theorem define {sites : List Site} (tells : Tells sites analysis later) (name : Token) :
    Tells sites analysis (later.define name) := by
  unfold Analysis.define
  split
  · exact tells
  · exact tells.congr rfl rfl

/-- A declaration is one site. -/
theorem declareAndDefine (scopes : List.Forall₂ Scope.Declares analysis.scopes around.scopes)
    (name : Token) :
    Tells [⟨.declaration, name, around⟩] analysis ((analysis.declare name).define name) :=
  (declare scopes name).define name

theorem returning (reflects : analysis.Reflects around) (keyword : Token) :
    Tells [⟨.returning, keyword, around⟩] analysis (analysis.returning keyword) := by
  have same := reflects.inFunction
  rw [Analysis.returning]
  cases kind : analysis.inFunction with
  | none =>
      rw [kind] at same
      exact .single (by simp [report, Site.error?, Site.fault?, ← same]) rfl
  | some kind' =>
      rw [kind] at same
      exact .single (by simp [Site.error?, Site.fault?, ← same]) rfl

/-- The distance of a reference is recorded if it is bound. -/
theorem record (reflects : analysis.Reflects around) {role : Role} {reference : Reference}
    {name : Token} (isReference : Site.reference? ⟨role, name, around⟩ = some (reference, name))
    (bound : Site.isStray ⟨role, name, around⟩ = false) :
    (analysis.record reference name).distances =
      Site.record analysis.distances ⟨role, name, around⟩ := by
  rw [Analysis.record, reflects.distance?_eq, Site.record, isReference, Site.distance?, bound,
    if_neg Bool.false_ne_true]
  dsimp only
  split
  · next distance found => rw [found]
  · next unbound => rw [unbound]

theorem errors_record (analysis : Analysis) (reference : Reference) (name : Token) :
    (analysis.record reference name).errors = analysis.errors := by
  rw [Analysis.record]
  split <;> rfl

theorem assignment (reflects : analysis.Reflects around) (reference : Reference) (name : Token) :
    Tells [⟨.assignment reference, name, around⟩] analysis (analysis.record reference name) := by
  apply single
  · rw [errors_record]
    exact (List.append_nil _).symm
  · exact record reflects rfl rfl

/-- What is wrong with a variable that is used. -/
theorem error?_use (around : Surroundings) (reference : Reference) (name : Token) :
    Site.error? ⟨.use reference, name, around⟩ =
      if around.initializing = some name.lexeme ∧ around.scopes ≠ [] then
        some (.scoping .readInOwnInitializer name) else none := by
  obtain ⟨scopes, _, _, _⟩ := around
  cases scopes with
  | nil => simp [Site.error?, Site.fault?]
  | cons =>
      simp only [Site.error?, Site.fault?]
      split <;> simp_all

theorem use (reflects : analysis.Reflects around) (reference : Reference) (name : Token) :
    Tells [⟨.use reference, name, around⟩] analysis (analysis.expr (.variable reference name)) := by
  have uninitialized := reflects.uninitialized name.lexeme
  rw [Analysis.expr]
  apply single
  · rw [errors_record, error?_use]
    split <;> simp_all [report]
  · split
    · have reported : (analysis.report .readInOwnInitializer name).Reflects around :=
        reflects.congr rfl rfl rfl
      exact record reported rfl rfl
    · exact record reflects rfl rfl

theorem receiver (reflects : analysis.Reflects around) (reference : Reference) (keyword : Token) :
    Tells [⟨.receiver reference, keyword, around⟩] analysis
      (analysis.expr (.this reference keyword)) := by
  have same := reflects.inClass
  rw [Analysis.expr]
  cases inside : analysis.inClass with
  | true =>
      rw [inside] at same
      apply single
      · simp [errors_record, Site.error?, Site.fault?, ← same]
      · exact record reflects rfl (by simp [Site.isStray, ← same])
  | false =>
      rw [inside] at same
      apply single
      · simp [report, Site.error?, Site.fault?, ← same]
      · simp [report, Site.record, Site.reference?, Site.distance?, Site.isStray, ← same]

theorem parameters (reflects : analysis.Reflects around) (plain : around.initializing = none)
    (names : List Token) :
    Tells (Stmt.parameterSites around names) analysis (analysis.parameters names) ∧
      (analysis.parameters names).Reflects (around.behind (names.map Token.lexeme)) := by
  induction names generalizing analysis around with
  | nil =>
      rw [List.map_nil, Surroundings.behind_nil]
      exact ⟨.refl _, reflects⟩
  | cons name names ih =>
      obtain ⟨tells, behind⟩ := ih (reflects.declareAndDefine plain name) plain
      rw [Surroundings.behind_behind] at behind
      exact ⟨(declareAndDefine reflects.scopes name).cons tells, behind⟩

end Tells

/-! ## The whole walk -/

mutual

/-- Through an expression, the walk tells its sites. -/
theorem tells_expr {analysis : Analysis} {around : Surroundings}
    (reflects : analysis.Reflects around) (expr : Expr Reference) :
    Tells (expr.sites around) analysis (analysis.expr expr) := by
  match expr with
  | .literal _ => exact .refl _
  | .grouping inner => exact tells_expr reflects inner
  | .unary _ operand => exact tells_expr reflects operand
  | .binary left _ right =>
      exact (tells_expr reflects left).append (tells_expr (reflects.expr left) right)
  | .logical left _ right =>
      exact (tells_expr reflects left).append (tells_expr (reflects.expr left) right)
  | .variable reference name => exact .use reflects reference name
  | .assign reference name value =>
      exact (tells_expr reflects value).append (.assignment (reflects.expr value) reference name)
  | .call callee _ arguments =>
      exact (tells_expr reflects callee).append (tells_exprs (reflects.expr callee) arguments)
  | .get object _ => exact tells_expr reflects object
  | .set object _ value =>
      exact (tells_expr reflects value).append (tells_expr (reflects.expr value) object)
  | .this reference keyword => exact .receiver reflects reference keyword

/-- Through a row of expressions, the walk tells their sites. -/
theorem tells_exprs {analysis : Analysis} {around : Surroundings}
    (reflects : analysis.Reflects around) (exprs : List (Expr Reference)) :
    Tells (Expr.allSites around exprs) analysis (analysis.exprs exprs) := by
  match exprs with
  | [] => exact .refl _
  | first :: rest =>
      exact (tells_expr reflects first).append (tells_exprs (reflects.expr first) rest)

end

mutual

/-- Through a statement, the walk tells its sites. -/
theorem tells_stmt {analysis : Analysis} {around : Surroundings}
    (reflects : analysis.Reflects around) (plain : around.initializing = none)
    (stmt : Stmt Reference) : Tells (stmt.sites around) analysis (analysis.stmt stmt) := by
  match stmt with
  | .expression value => exact tells_expr reflects value
  | .print value => exact tells_expr reflects value
  | .varDecl name none => exact .declareAndDefine reflects.scopes name
  | .varDecl name (some initializer) =>
      have declared := reflects.declare plain name
      have tells := (Tells.declare reflects.scopes name).cons (tells_expr declared initializer)
      exact tells.define name
  | .block body =>
      have tells := tells_stmts reflects.enterEmpty rfl body
      exact ⟨tells.errors, tells.distances⟩
  | .conditional condition onTrue none =>
      exact (tells_expr reflects condition).append
        (tells_stmt (reflects.expr condition) plain onTrue)
  | .conditional condition onTrue (some onFalse) =>
      have behind := reflects.expr condition
      exact ((tells_expr reflects condition).append (tells_stmt behind plain onTrue)).append
        (tells_stmt (behind.stmt plain onTrue) plain onFalse)
  | .whileLoop condition body =>
      exact (tells_expr reflects condition).append
        (tells_stmt (reflects.expr condition) plain body)
  | .funDecl declaration =>
      have named := reflects.declareAndDefine plain declaration.name
      exact (Tells.declareAndDefine reflects.scopes declaration.name).cons
        (tells_function named .function declaration)
  | .returning keyword none => exact .returning reflects keyword
  | .returning keyword (some value) =>
      exact (Tells.returning reflects keyword).cons
        (tells_expr (reflects.returning keyword) value)
  | .classDecl name members =>
      -- The name is declared from inside the class, which makes no difference to it.
      let inside := { analysis with inClass := true }
      have scopes : List.Forall₂ Scope.Declares inside.scopes around.scopes := reflects.scopes
      have tells := tells_methods (reflects.enterClass plain name) members
      have whole := (Tells.declareAndDefine scopes name).cons ⟨tells.errors, tells.distances⟩
      exact ⟨whole.errors, whole.distances⟩

/-- Through a function, the walk tells its sites. -/
theorem tells_function {analysis : Analysis} {around : Surroundings}
    (reflects : analysis.Reflects around) (kind : FunctionKind)
    (declaration : FunctionDecl Reference) :
    Tells (Stmt.functionSites around declaration) analysis
      (analysis.function kind declaration) := by
  match declaration with
  | .mk _ names body =>
      obtain ⟨tells, behind⟩ := Tells.parameters (reflects.enterFunction kind) rfl names
      have whole := tells.append (tells_stmts behind rfl body)
      exact ⟨whole.errors, whole.distances⟩

/-- Through methods, the walk tells their sites. -/
theorem tells_methods {analysis : Analysis} {around : Surroundings}
    (reflects : analysis.Reflects around) (methods : List (FunctionDecl Reference)) :
    Tells (Stmt.methodSites around methods) analysis (analysis.methods methods) := by
  match methods with
  | [] => exact .refl _
  | first :: rest =>
      exact (tells_function reflects .method first).append
        (tells_methods (reflects.function .method first) rest)

/-- Through a row of statements, the walk tells their sites. -/
theorem tells_stmts {analysis : Analysis} {around : Surroundings}
    (reflects : analysis.Reflects around) (plain : around.initializing = none)
    (stmts : List (Stmt Reference)) :
    Tells (Stmt.allSites around stmts) analysis (analysis.stmts stmts) := by
  match stmts with
  | [] => exact .refl _
  | first :: rest =>
      exact (tells_stmt reflects plain first).append
        (tells_stmts (reflects.stmt plain first) plain rest)

end

/-- Through a program, the walk tells its sites, whatever has been found before. -/
theorem tells_program (known : Distances) (reported : List StaticError)
    (program : List (Stmt Reference)) :
    let start : Analysis := { distances := known, errors := reported }
    Tells (Stmt.programSites program) start (start.stmts program) := by
  intro start
  have top : start.Reflects {} := ⟨.nil, fun name => by simp [isUninitialized, start], rfl, rfl⟩
  exact tells_stmts top rfl program

end Analysis

end Lox
