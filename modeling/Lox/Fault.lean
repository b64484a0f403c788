/-
# What can be wrong with a program

A fault is a cause, not a text: each stage has its own closed list of them,
and one function per list that words them.  A static error is a fault together
with the place where it was noticed; the errors of a text are reported all
together, before anything runs.  A run-time error stops a run at one token.

The wording of a place is the same for all static errors: the line, and the
token that was found there, if a token was.
-/

import Lox.Token

namespace Lox

/-- What can be wrong with the characters of a text. -/
inductive LexicalFault where
  /-- A character that starts no segment of the language. -/
  | unexpectedCharacter (character : Char)
  /-- A quote that no later quote closes. -/
  | unterminatedString
  /-- A comment that nothing closes. -/
  | unterminatedComment
deriving DecidableEq

/-- The wording of a lexical fault. -/
def LexicalFault.message : LexicalFault → String
  | unexpectedCharacter character => "Unexpected character: " ++ String.singleton character
  | unterminatedString => "Unterminated string."
  | unterminatedComment => "Unterminated block comment."

/-- The two kinds of function declaration. -/
inductive FunctionKind where
  | function
  | method
deriving DecidableEq

/-- The word for a kind of function. -/
def FunctionKind.word : FunctionKind → String
  | function => "function"
  | method => "method"

/-- The greatest number of arguments of a call and of parameters of a
function. -/
def mostArguments : Nat := 8

/-- What can be wrong with the order of the tokens. -/
inductive SyntaxFault where
  | noExpression
  | noClassName
  | noClassBody
  | classBodyNotClosed
  | noFunctionName (kind : FunctionKind)
  | noParameterList (kind : FunctionKind)
  | noParameterName
  | parameterListNotClosed
  | noFunctionBody (kind : FunctionKind)
  | noVariableName
  | variableNotClosed
  | noForClauses
  | loopConditionNotClosed
  | forClausesNotClosed
  | noIfCondition
  | ifConditionNotClosed
  | noWhileCondition
  | whileConditionNotClosed
  | printNotClosed
  | returnNotClosed
  | expressionNotClosed
  | blockNotClosed
  | noPropertyName
  | argumentsNotClosed
  | groupNotClosed
  /-- The left side of `=` is neither a name nor a property. -/
  | invalidAssignmentTarget
  | tooManyParameters
  | tooManyArguments
deriving DecidableEq

/-- The wording of a syntax fault. -/
def SyntaxFault.message : SyntaxFault → String
  | noExpression => "Expect expression."
  | noClassName => "Expect class name."
  | noClassBody => "Expect '\x7b' before class body."
  | classBodyNotClosed => "Expect '\x7d' after class body."
  | noFunctionName kind => "Expect " ++ kind.word ++ " name."
  | noParameterList kind => "Expect '(' after " ++ kind.word ++ " name."
  | noParameterName => "Expect parameter name."
  | parameterListNotClosed => "Expect ')' after parameters."
  | noFunctionBody kind => "Expect '\x7b' before " ++ kind.word ++ " body."
  | noVariableName => "Expect variable name."
  | variableNotClosed => "Expect ';' after variable declaration."
  | noForClauses => "Expect '(' after 'for'."
  | loopConditionNotClosed => "Expect ';' after loop condition."
  | forClausesNotClosed => "Expect ')' after for clauses."
  | noIfCondition => "Expect '(' after 'if'."
  | ifConditionNotClosed => "Expect ')' after if condition."
  | noWhileCondition => "Expect '(' after 'while'."
  | whileConditionNotClosed => "Expect ')' after condition."
  | printNotClosed => "Expect ';' after value."
  | returnNotClosed => "Expect ';' after return value."
  | expressionNotClosed => "Expect ';' after expression."
  | blockNotClosed => "Expect '\x7d' after block."
  | noPropertyName => "Expect property name after '.'."
  | argumentsNotClosed => "Expect ')' after arguments."
  | groupNotClosed => "Expect ')' after expression."
  | invalidAssignmentTarget => "Invalid assignment target."
  | tooManyParameters => "Can't have more than " ++ toString mostArguments ++ " parameters."
  | tooManyArguments => "Can't have more than " ++ toString mostArguments ++ " arguments."

/-- What can be wrong with the scopes of a program. -/
inductive ScopeFault where
  /-- A name is declared twice in one local scope. -/
  | alreadyDeclared
  /-- A local variable is read while its own initializer is evaluated. -/
  | readInOwnInitializer
  | returnOutsideFunction
  | thisOutsideClass
deriving DecidableEq

/-- The wording of a scope fault. -/
def ScopeFault.message : ScopeFault → String
  | alreadyDeclared => "Already a variable with this name in this scope."
  | readInOwnInitializer => "Can't read local variable in its own initializer."
  | returnOutsideFunction => "Can't return from top-level code."
  | thisOutsideClass => "Can't use 'this' outside of a class."

/-- The stages that can reject a program before it runs. -/
inductive Stage where
  | lexical
  | grammatical
  | scoping
deriving DecidableEq

/-- A reason not to run a program. -/
inductive StaticError where
  /-- A lexical fault in a segment that ended on a line. -/
  | lexical (fault : LexicalFault) (line : Nat)
  /-- A syntax fault noticed at a token. -/
  | grammatical (fault : SyntaxFault) (place : Token)
  /-- A scope fault noticed at a token. -/
  | scoping (fault : ScopeFault) (place : Token)
deriving DecidableEq

/-- Where an error was noticed, as part of its message. -/
def Token.asPlace (token : Token) : String :=
  if token.isEnd then " at end" else " at '" ++ token.lexeme ++ "'"

/-- The text of a static error. -/
def errorText (line : Nat) (place message : String) : String :=
  "[line " ++ toString line ++ "] Error" ++ place ++ ": " ++ message

namespace StaticError

/-- The stage that noticed an error. -/
def stage : StaticError → Stage
  | lexical .. => .lexical
  | grammatical .. => .grammatical
  | scoping .. => .scoping

/-- The full text of an error. -/
def message : StaticError → String
  | lexical fault line => errorText line "" fault.message
  | grammatical fault place => errorText place.line place.asPlace fault.message
  | scoping fault place => errorText place.line place.asPlace fault.message

end StaticError

/-- What can go wrong while a program runs.  Operators are named by their
lexeme. -/
inductive RuntimeFault where
  | undefinedVariable (name : String)
  | undefinedProperty (name : String)
  /-- A property is read of a value that is no instance. -/
  | propertyOfNonInstance
  /-- A property is set on a value that is no instance. -/
  | fieldOfNonInstance
  | notCallable
  | wrongArgumentCount (expected given : Nat)
  | operandNotNumber (operator : String)
  | leftNotNumber (operator : String)
  | rightNotNumber (operator : String)
  /-- The left operand of `+` is neither a number nor a string. -/
  | leftNotAddable
  /-- The left operand of `+` is a string and the right one is not. -/
  | rightNotString
  | invalidOperator (operator : String)
deriving DecidableEq

/-- The wording of a run-time fault. -/
def RuntimeFault.message : RuntimeFault → String
  | undefinedVariable name => "Undefined variable '" ++ name ++ "'."
  | undefinedProperty name => "Undefined property '" ++ name ++ "'."
  | propertyOfNonInstance => "Only instances have properties."
  | fieldOfNonInstance => "Only instances have fields."
  | notCallable => "Can only call functions and classes."
  | wrongArgumentCount expected given =>
    "Expected " ++ toString expected ++ " arguments but got " ++ toString given ++ "."
  | operandNotNumber operator => "Operand of '" ++ operator ++ "' must be a number."
  | leftNotNumber operator => "Left operand of '" ++ operator ++ "' must be a number."
  | rightNotNumber operator => "Right operand of '" ++ operator ++ "' must be a number."
  | leftNotAddable => "Left operand of '+' must be a number or a string."
  | rightNotString => "Right operand of '+' must be a string."
  | invalidOperator operator => "Invalid binary operator '" ++ operator ++ "'."

/-- A run-time fault on a line. -/
structure RuntimeError where
  fault : RuntimeFault
  line : Nat
deriving DecidableEq

/-- The full text of a run-time error. -/
def RuntimeError.message (error : RuntimeError) : String :=
  error.fault.message ++ "\n[line " ++ toString error.line ++ "]"

end Lox
