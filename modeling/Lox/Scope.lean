/-
# Scopes, and how far out a name is bound

The analysis of a program walks it once, in the order in which it is written,
with a stack of the scopes that are open.  Blocks, the bodies of functions
together with their parameters, and the methods of a class open a scope; the
top level of a program is none, because its names may be declared again and
may be used before they are.

The walk does two things.  For every reference whose name some open scope
declares at that point it records the distance, the number of scopes between
the reference and the innermost one that declares the name.  And it reports
the faults that can be seen without running the program.  A fault never stops
the walk.
-/

import Std.Data.TreeMap
import Lox.Fault
import Lox.Syntax.Reference

namespace Lox

/-- The names that a scope declares, each with whether its initializer is
behind us. -/
abbrev Scope := Std.TreeMap String Bool

/-- How many scopes out each reference is bound.  A reference without a
distance is looked up among the globals. -/
abbrev Distances := Std.TreeMap Reference Nat

/-- A point in the walk through a program. -/
structure Analysis where
  /-- The open scopes, the innermost first. -/
  scopes : List Scope := []
  /-- The kind of the function that the walk is in, if it is in one. -/
  inFunction : Option FunctionKind := none
  /-- Whether the walk is in a class. -/
  inClass : Bool := false
  /-- The distances recorded so far. -/
  distances : Distances := {}
  /-- The faults found so far, in the order of the walk. -/
  errors : List StaticError := []

namespace Analysis

/-- Reports a fault at a token. -/
def report (analysis : Analysis) (fault : ScopeFault) (place : Token) : Analysis :=
  { analysis with errors := analysis.errors ++ [.scoping fault place] }

/-- Opens a scope. -/
def enter (analysis : Analysis) (scope : Scope := {}) : Analysis :=
  { analysis with scopes := scope :: analysis.scopes }

/-- Closes the innermost scope. -/
def leave (analysis : Analysis) : Analysis :=
  { analysis with scopes := analysis.scopes.tail }

/-- Declares a name in the innermost scope; it is not initialized yet.  The
top level declares nothing. -/
def declare (analysis : Analysis) (name : Token) : Analysis :=
  match analysis.scopes with
  | [] => analysis
  | scope :: outer =>
    let declared := { analysis with scopes := scope.insert name.lexeme false :: outer }
    if scope.contains name.lexeme then declared.report .alreadyDeclared name else declared

/-- Marks a name of the innermost scope as initialized. -/
def define (analysis : Analysis) (name : Token) : Analysis :=
  match analysis.scopes with
  | [] => analysis
  | scope :: outer => { analysis with scopes := scope.insert name.lexeme true :: outer }

/-- The number of scopes between here and the innermost one that declares a
name. -/
def distance? (analysis : Analysis) (name : String) : Option Nat :=
  analysis.scopes.findIdx? fun scope => scope.contains name

/-- Records the distance of a reference, if it has one. -/
def record (analysis : Analysis) (reference : Reference) (name : Token) : Analysis :=
  match analysis.distance? name.lexeme with
  | some distance =>
    { analysis with distances := analysis.distances.insert reference distance }
  | none => analysis

/-- Whether a name is declared in the innermost scope and not initialized. -/
def isUninitialized (analysis : Analysis) (name : String) : Bool :=
  match analysis.scopes with
  | [] => false
  | scope :: _ => scope[name]? = some false

mutual

/-- Walks through an expression.  The value of a property that is set comes
before its object. -/
def expr (analysis : Analysis) : Expr Reference → Analysis
  | .literal _ => analysis
  | .grouping inner => analysis.expr inner
  | .unary _ operand => analysis.expr operand
  | .binary left _ right => (analysis.expr left).expr right
  | .logical left _ right => (analysis.expr left).expr right
  | .variable reference name =>
    let checked :=
      if analysis.isUninitialized name.lexeme then analysis.report .readInOwnInitializer name
      else analysis
    checked.record reference name
  | .assign reference name value => (analysis.expr value).record reference name
  | .call callee _ arguments => (analysis.expr callee).exprs arguments
  | .get object _ => analysis.expr object
  | .set object _ value => (analysis.expr value).expr object
  | .this reference keyword =>
    if analysis.inClass then analysis.record reference keyword
    else analysis.report .thisOutsideClass keyword

/-- Walks through a row of expressions. -/
def exprs (analysis : Analysis) : List (Expr Reference) → Analysis
  | [] => analysis
  | first :: rest => (analysis.expr first).exprs rest

end

/-- Checks that a return stands in a function. -/
def returning (analysis : Analysis) (keyword : Token) : Analysis :=
  if analysis.inFunction.isNone then analysis.report .returnOutsideFunction keyword
  else analysis

/-- Declares and initializes the parameters of a function. -/
def parameters (analysis : Analysis) (names : List Token) : Analysis :=
  names.foldl (fun analysis name => (analysis.declare name).define name) analysis

/-- The scope of the methods of a class: it binds `this`. -/
def receiverScope : Scope :=
  ({} : Scope).insert "this" true

mutual

/-- Walks through a statement. -/
def stmt (analysis : Analysis) : Stmt Reference → Analysis
  | .expression value => analysis.expr value
  | .print value => analysis.expr value
  | .varDecl name none => (analysis.declare name).define name
  | .varDecl name (some initializer) => ((analysis.declare name).expr initializer).define name
  | .block body => (analysis.enter.stmts body).leave
  | .conditional condition onTrue none => (analysis.expr condition).stmt onTrue
  | .conditional condition onTrue (some onFalse) =>
    ((analysis.expr condition).stmt onTrue).stmt onFalse
  | .whileLoop condition body => (analysis.expr condition).stmt body
  | .funDecl declaration =>
    ((analysis.declare declaration.name).define declaration.name).function .function declaration
  | .returning keyword none => analysis.returning keyword
  | .returning keyword (some value) => (analysis.returning keyword).expr value
  | .classDecl name members =>
    let inside := { analysis with inClass := true }
    let declared := (inside.declare name).define name
    { ((declared.enter receiverScope).methods members).leave with inClass := analysis.inClass }

/-- Walks through a function: its parameters and its body share a scope. -/
def function (analysis : Analysis) (kind : FunctionKind) : FunctionDecl Reference → Analysis
  | .mk _ names body =>
    let inside := ({ analysis with inFunction := some kind }.enter).parameters names
    { (inside.stmts body).leave with inFunction := analysis.inFunction }

/-- Walks through the methods of a class. -/
def methods (analysis : Analysis) : List (FunctionDecl Reference) → Analysis
  | [] => analysis
  | first :: rest => (analysis.function .method first).methods rest

/-- Walks through a row of statements. -/
def stmts (analysis : Analysis) : List (Stmt Reference) → Analysis
  | [] => analysis
  | first :: rest => (analysis.stmt first).stmts rest

end

end Analysis

/-- Analyses a program: the distances known before it with those of its
references, and its faults. -/
def analyse (known : Distances) (program : List (Stmt Reference)) :
    Distances × List StaticError :=
  let analysis := ({ distances := known } : Analysis).stmts program
  (analysis.distances, analysis.errors)

end Lox
