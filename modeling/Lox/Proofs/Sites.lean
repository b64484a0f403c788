/-
# The sites of a program

A site is a place of a program where scopes matter: a reference, the name of a
declaration or of a parameter, or a return.  This module says, for every site of a
program, what stands around it: the scopes that enclose it, each with the names that it
has declared by then, and whether it stands in an initializer, a function or a class.
All of this is read off the tree, and nothing off an analysis.

From what stands around a site follows at which distance it is bound (`Site.BoundAt`)
and what is wrong with it (`Site.fault?`).
-/

import Lox.Scope

namespace Lox

/-- What stands around a place of a program. -/
structure Surroundings where
  /-- The scopes that enclose the place, the innermost first, each with the names that
  it declares itself before the place.  The top level is none of them. -/
  scopes : List (List String) := []
  /-- The variable in whose initializer the place stands, if it stands in one. -/
  initializing : Option String := none
  /-- Whether the place stands in the body of a function or of a method. -/
  inFunction : Bool := false
  /-- Whether the place stands in a class. -/
  inClass : Bool := false
deriving DecidableEq

namespace Surroundings

/-- What stands around the places behind a declaration of these names.  The top level
declares nothing. -/
def behind (around : Surroundings) (names : List String) : Surroundings :=
  { around with scopes := around.scopes.modifyHead (· ++ names) }

/-- What stands around the places in the initializer of a variable. -/
def inInitializer (around : Surroundings) (name : String) : Surroundings :=
  { around.behind [name] with initializing := some name }

/-- What stands around the first place of a new scope. -/
def inScope (around : Surroundings) (names : List String := []) : Surroundings :=
  { around with scopes := names :: around.scopes, initializing := none }

/-- What stands around the first parameter of a function. -/
def inFunctionScope (around : Surroundings) : Surroundings :=
  { around.inScope with inFunction := true }

/-- What stands around the methods of a class. -/
def inClassScope (around : Surroundings) : Surroundings :=
  { around.inScope ["this"] with inClass := true }

@[simp]
theorem behind_nil (around : Surroundings) : around.behind [] = around := by
  obtain ⟨scopes, _, _, _⟩ := around
  cases scopes <;> simp [behind]

/-- Names may be declared one after the other. -/
@[simp]
theorem behind_behind (around : Surroundings) (names more : List String) :
    (around.behind names).behind more = around.behind (names ++ more) := by
  obtain ⟨scopes, _, _, _⟩ := around
  cases scopes <;> simp [behind]

end Surroundings

/-- What stands at a site. -/
inductive Role where
  | use (reference : Reference)
  | assignment (reference : Reference)
  /-- The word `this`. -/
  | receiver (reference : Reference)
  /-- A variable, a function, a class or a parameter that is declared. -/
  | declaration
  | returning
deriving DecidableEq

/-- A place of a program where scopes matter, with the token that stands there. -/
structure Site where
  role : Role
  token : Token
  around : Surroundings
deriving DecidableEq

namespace Site

/-- The reference at a site, with the token that names it. -/
def reference? (site : Site) : Option (Reference × Token) :=
  match site.role with
  | .use reference => some (reference, site.token)
  | .assignment reference => some (reference, site.token)
  | .receiver reference => some (reference, site.token)
  | .declaration => none
  | .returning => none

/-- The references at these sites, with the tokens that name them. -/
def references (sites : List Site) : List (Reference × Token) :=
  sites.filterMap reference?

/-- Whether there is a `this` at a site that stands in no class. -/
def isStray (site : Site) : Bool :=
  match site.role with
  | .receiver _ => !site.around.inClass
  | _ => false

/-- The innermost scope that declares the name of a site is so many scopes further
out. -/
structure BoundAt (site : Site) (distance : Nat) : Prop where
  notStray : site.isStray = false
  declares : ∃ names, site.around.scopes[distance]? = some names ∧ site.token.lexeme ∈ names
  innermost : ∀ nearer < distance, ∀ names, site.around.scopes[nearer]? = some names →
    site.token.lexeme ∉ names

/-- No scope around a site declares its name, or the site is a `this` that stands in no
class. -/
def Unbound (site : Site) : Prop :=
  site.isStray = true ∨ ∀ names ∈ site.around.scopes, site.token.lexeme ∉ names

/-- What is wrong with a site: a name that its own scope, other than the top level, has
declared before; a variable that is read in its own initializer, unless it is one of the
top level; a return outside every function; a `this` outside every class. -/
def fault? (site : Site) : Option ScopeFault :=
  match site.role, site.around.scopes with
  | .declaration, scope :: _ =>
    if site.token.lexeme ∈ scope then some .alreadyDeclared else none
  | .use _, _ :: _ =>
    if site.around.initializing = some site.token.lexeme then some .readInOwnInitializer
    else none
  | .returning, _ => if site.around.inFunction then none else some .returnOutsideFunction
  | .receiver _, _ => if site.around.inClass then none else some .thisOutsideClass
  | _, _ => none

/-- The error that is to be reported at a site. -/
def error? (site : Site) : Option StaticError :=
  site.fault?.map fun fault => .scoping fault site.token

end Site

namespace Expr

mutual

/-- The sites of an expression, in the order of the walk. -/
def sites (around : Surroundings) : Expr Reference → List Site
  | literal _ => []
  | grouping inner => inner.sites around
  | unary _ operand => operand.sites around
  | binary left _ right => left.sites around ++ right.sites around
  | logical left _ right => left.sites around ++ right.sites around
  | .variable reference name => [⟨.use reference, name, around⟩]
  | assign reference name value => value.sites around ++ [⟨.assignment reference, name, around⟩]
  | call callee _ arguments => callee.sites around ++ allSites around arguments
  | get object _ => object.sites around
  | set object _ value => value.sites around ++ object.sites around
  | this reference keyword => [⟨.receiver reference, keyword, around⟩]

/-- The sites of a row of expressions. -/
def allSites (around : Surroundings) : List (Expr Reference) → List Site
  | [] => []
  | first :: rest => first.sites around ++ allSites around rest

end

end Expr

namespace Stmt

/-- The names that a statement declares in the scope in which it stands itself. -/
def declaredNames {ρ : Type} : Stmt ρ → List String
  | varDecl name _ => [name.lexeme]
  | funDecl declaration => [declaration.name.lexeme]
  | classDecl name _ => [name.lexeme]
  | conditional _ onTrue none => onTrue.declaredNames
  | conditional _ onTrue (some onFalse) => onTrue.declaredNames ++ onFalse.declaredNames
  | whileLoop _ body => body.declaredNames
  | _ => []

/-- The sites of the parameters of a function. -/
def parameterSites (around : Surroundings) : List Token → List Site
  | [] => []
  | name :: rest =>
    ⟨.declaration, name, around⟩ :: parameterSites (around.behind [name.lexeme]) rest

mutual

/-- The sites of a statement, in the order of the walk. -/
def sites (around : Surroundings) : Stmt Reference → List Site
  | expression value => value.sites around
  | print value => value.sites around
  | varDecl name none => [⟨.declaration, name, around⟩]
  | varDecl name (some initializer) =>
    ⟨.declaration, name, around⟩ :: initializer.sites (around.inInitializer name.lexeme)
  | block body => allSites around.inScope body
  | conditional condition onTrue none => condition.sites around ++ onTrue.sites around
  | conditional condition onTrue (some onFalse) =>
    condition.sites around ++ onTrue.sites around ++
      onFalse.sites (around.behind onTrue.declaredNames)
  | whileLoop condition body => condition.sites around ++ body.sites around
  | funDecl declaration =>
    ⟨.declaration, declaration.name, around⟩ ::
      functionSites (around.behind [declaration.name.lexeme]) declaration
  | returning keyword none => [⟨.returning, keyword, around⟩]
  | returning keyword (some value) => ⟨.returning, keyword, around⟩ :: value.sites around
  | classDecl name methods =>
    ⟨.declaration, name, around⟩ :: methodSites (around.behind [name.lexeme]).inClassScope methods

/-- The sites of the parameters and of the body of a function.  They share a scope. -/
def functionSites (around : Surroundings) : FunctionDecl Reference → List Site
  | .mk _ names body =>
    parameterSites around.inFunctionScope names ++
      allSites (around.inFunctionScope.behind (names.map Token.lexeme)) body

/-- The sites of the methods of a class. -/
def methodSites (around : Surroundings) : List (FunctionDecl Reference) → List Site
  | [] => []
  | first :: rest => functionSites around first ++ methodSites around rest

/-- The sites of a row of statements.  A statement stands behind the declarations of the
statements in front of it. -/
def allSites (around : Surroundings) : List (Stmt Reference) → List Site
  | [] => []
  | first :: rest => first.sites around ++ allSites (around.behind first.declaredNames) rest

end

/-- The sites of a program. -/
def programSites (program : List (Stmt Reference)) : List Site :=
  allSites {} program

end Stmt

end Lox
