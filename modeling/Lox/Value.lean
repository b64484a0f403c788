/-
# Values

Numbers, strings, truth values and nil are equal when they look the same; NaN
is equal to itself, and the two zeros are equal to each other.  Functions,
classes and instances have an identity, and are equal only to themselves.

An instance is known by its identity and its class; its fields are kept by
the machine, so that every value that refers to it sees the same fields.

Nothing that is said about values here depends on how functions find the names
that are not their own.  In a running program these are found from the frame
in which the function was declared.
-/

import Lox.Frame
import Lox.Number.Style
import Lox.Syntax.Reference

namespace Lox

/-- A function that the language provides. -/
inductive Native where
  /-- The time in seconds. -/
  | clock
deriving DecidableEq

/-- A function together with its home: what it keeps of the place where it was
declared, to find the names that are not its own.  A method that was taken
from an instance is such a function too; its home binds `this`. -/
structure ClosureOf (ρ γ : Type) where
  identity : Nat
  declaration : FunctionDecl ρ
  home : γ

/-- A class with the methods that it declares and its home, which is the one
of its methods before they are taken from an instance. -/
structure ClassOf (ρ γ : Type) where
  identity : Nat
  name : String
  methods : List (FunctionDecl ρ)
  home : γ

/-- An instance of a class. -/
structure InstanceOf (ρ γ : Type) where
  identity : Nat
  ofClass : ClassOf ρ γ

/-- What an expression can evaluate to, where the references of functions are
labelled by `ρ` and their homes are of a type `γ`. -/
inductive ValueOf (ρ γ : Type) where
  | nil
  | boolean (value : Bool)
  | number (value : Float)
  | string (text : String)
  | function (closure : ClosureOf ρ γ)
  | native (native : Native)
  | classValue (cls : ClassOf ρ γ)
  | instanceValue (object : InstanceOf ρ γ)

variable {ρ γ : Type}

/-- The method with a name.  Of several the last one counts. -/
def ClassOf.method? (cls : ClassOf ρ γ) (name : String) : Option (FunctionDecl ρ) :=
  cls.methods.reverse.find? fun method => method.name.lexeme = name

namespace ValueOf

/-- The value of a literal. -/
def ofLiteral : Literal → ValueOf ρ γ
  | .number value => number value
  | .string text => string text
  | .boolean value => boolean value
  | .nil => nil

/-- Whether a value counts as true.  Only nil and false do not. -/
def isTruthy : ValueOf ρ γ → Bool
  | .nil => false
  | .boolean value => value
  | _ => true

/-- Whether two values are equal. -/
def equals : ValueOf ρ γ → ValueOf ρ γ → Bool
  | .nil, .nil => true
  | .boolean left, .boolean right => left = right
  | .number left, .number right => left == right || (left.isNaN && right.isNaN)
  | .string left, .string right => left = right
  | .function left, .function right => left.identity = right.identity
  | .native left, .native right => left = right
  | .classValue left, .classValue right => left.identity = right.identity
  | .instanceValue left, .instanceValue right => left.identity = right.identity
  | _, _ => false

/-- How a value is printed. -/
def display : ValueOf ρ γ → String
  | .nil => "nil"
  | .boolean true => "true"
  | .boolean false => "false"
  | .number value => NumberStyle.display.write value
  | .string text => text
  | .function closure => "<fn " ++ closure.declaration.name.lexeme ++ ">"
  | .native _ => "<native fn>"
  | .classValue cls => cls.name
  | .instanceValue object => object.ofClass.name ++ " instance"

end ValueOf

/-- A function whose home is a frame. -/
abbrev Closure := ClosureOf Reference FrameId

/-- A class whose home is a frame. -/
abbrev Class := ClassOf Reference FrameId

/-- An instance of a class whose home is a frame. -/
abbrev Instance := InstanceOf Reference FrameId

/-- What an expression of a running program evaluates to. -/
abbrev Value := ValueOf Reference FrameId

end Lox
