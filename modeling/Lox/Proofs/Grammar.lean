/-
# The grammar of programs

The grammar is given twice.  As a table of *productions* it says which rows of
tokens are programs and nothing else: `Derives` is the usual derivation over
the phrases of the table, with repetition, options and alternatives.  The
table is ambiguous in one place, because an `else` may be taken by any open
conditional in front of it.

As the relations `Expression` and `Statement` it also says which tree a row of
tokens stands for.  These relations follow the same productions and settle the
ambiguity: a conditional with an alternative never has a branch that could
take the `else` itself.

Neither form mentions the functions that read programs.  A call has at most
eight arguments and a function at most eight parameters.
-/

import Lox.Reading.Expression

namespace Lox.Grammar

/-- A word that a production asks for. -/
inductive Terminal where
  | symbol (symbol : Symbol)
  | keyword (keyword : Keyword)
  | identifier
  | number
  | string

/-- Whether a token is a word that a production asks for. -/
def Terminal.Matches (terminal : Terminal) (token : Token) : Prop :=
  match terminal with
  | symbol s => token.kind = .symbol s
  | keyword k => token.kind = .keyword k
  | identifier => token.kind = .identifier
  | number => ∃ value, token.kind = .number value
  | string => ∃ text, token.kind = .string text

/-- The names of the productions. -/
inductive Nonterminal where
  | program
  | declaration
  | classDecl
  | funDecl
  | function
  | varDecl
  | statement
  | exprStmt
  | forStmt
  | ifStmt
  | printStmt
  | returnStmt
  | whileStmt
  | block
  | parameters
  | expression
  | assignment
  | logicOr
  | logicAnd
  | equality
  | comparison
  | term
  | factor
  | unary
  | call
  | arguments
  | primary

/-- The right side of a production. -/
inductive Phrase where
  | empty
  | terminal (terminal : Terminal)
  | part (name : Nonterminal)
  | both (first second : Phrase)
  | either (first second : Phrase)
  | optional (phrase : Phrase)
  /-- Any number of times, not at all included. -/
  | many (phrase : Phrase)
  /-- At most so many times. -/
  | upTo (most : Nat) (phrase : Phrase)

namespace Phrase

/-- Phrases one after the other. -/
def row : List Phrase → Phrase
  | [] => empty
  | first :: rest => both first (row rest)

/-- A first phrase or one of the others. -/
def oneOf (first : Phrase) : List Phrase → Phrase
  | [] => first
  | second :: others => either first (oneOf second others)

/-- A symbol. -/
def sign (symbol : Symbol) : Phrase := terminal (.symbol symbol)

/-- A reserved word. -/
def word (keyword : Keyword) : Phrase := terminal (.keyword keyword)

/-- A name that the program chose. -/
def name : Phrase := terminal .identifier

/-- Operands with operators between them. -/
def chain (operand : Nonterminal) (first : Terminal) (others : List Terminal) : Phrase :=
  row [part operand,
    many (row [oneOf (terminal first) (others.map terminal), part operand])]

end Phrase

open Phrase in
/-- The table of productions.  The end of input is no token of a program. -/
def production : Nonterminal → Phrase
  | .program => many (part .declaration)
  | .declaration =>
    oneOf (part .classDecl) [part .funDecl, part .varDecl, part .statement]
  | .classDecl =>
    row [word .classWord, name, sign .leftBrace, many (part .function), sign .rightBrace]
  | .funDecl => row [word .funWord, part .function]
  | .function =>
    row [name, sign .leftParen, optional (part .parameters), sign .rightParen, part .block]
  | .varDecl =>
    row [word .varWord, name, optional (row [sign .equal, part .expression]), sign .semicolon]
  | .statement =>
    oneOf (part .exprStmt)
      [part .forStmt, part .ifStmt, part .printStmt, part .returnStmt, part .whileStmt,
        part .block]
  | .exprStmt => row [part .expression, sign .semicolon]
  | .forStmt =>
    row [word .forWord, sign .leftParen,
      oneOf (part .varDecl) [part .exprStmt, sign .semicolon],
      optional (part .expression), sign .semicolon, optional (part .expression),
      sign .rightParen, part .statement]
  | .ifStmt =>
    row [word .ifWord, sign .leftParen, part .expression, sign .rightParen, part .statement,
      optional (row [word .elseWord, part .statement])]
  | .printStmt => row [word .printWord, part .expression, sign .semicolon]
  | .returnStmt => row [word .returnWord, optional (part .expression), sign .semicolon]
  | .whileStmt =>
    row [word .whileWord, sign .leftParen, part .expression, sign .rightParen, part .statement]
  | .block => row [sign .leftBrace, many (part .declaration), sign .rightBrace]
  | .parameters => row [name, upTo 7 (row [sign .comma, name])]
  | .expression => part .assignment
  | .assignment =>
    oneOf
      (row [optional (row [part .call, sign .dot]), name, sign .equal, part .assignment])
      [part .logicOr]
  | .logicOr => chain .logicAnd (.keyword .orWord) []
  | .logicAnd => chain .equality (.keyword .andWord) []
  | .equality => chain .comparison (.symbol .bangEqual) [.symbol .equalEqual]
  | .comparison =>
    chain .term (.symbol .greater)
      [.symbol .greaterEqual, .symbol .less, .symbol .lessEqual]
  | .term => chain .factor (.symbol .minus) [.symbol .plus]
  | .factor => chain .unary (.symbol .slash) [.symbol .star]
  | .unary =>
    oneOf (row [oneOf (sign .bang) [sign .minus], part .unary]) [part .call]
  | .call =>
    row [part .primary,
      many
        (oneOf (row [sign .leftParen, optional (part .arguments), sign .rightParen])
          [row [sign .dot, name]])]
  | .arguments => row [part .expression, upTo 7 (row [sign .comma, part .expression])]
  | .primary =>
    oneOf (terminal .number)
      [terminal .string, word .trueWord, word .falseWord, word .nilWord, word .thisWord, name,
        row [sign .leftParen, part .expression, sign .rightParen]]

/-- A row of tokens is derived from a phrase. -/
inductive Derives : Phrase → List Token → Prop where
  | empty : Derives .empty []
  | terminal {terminal : Terminal} {token : Token} (same : terminal.Matches token) :
      Derives (.terminal terminal) [token]
  | part {name : Nonterminal} {tokens : List Token} (body : Derives (production name) tokens) :
      Derives (.part name) tokens
  | both {first second : Phrase} {left right : List Token} (before : Derives first left)
      (behind : Derives second right) : Derives (.both first second) (left ++ right)
  | eitherFirst {first second : Phrase} {tokens : List Token} (chosen : Derives first tokens) :
      Derives (.either first second) tokens
  | eitherSecond {first second : Phrase} {tokens : List Token} (chosen : Derives second tokens) :
      Derives (.either first second) tokens
  | absent {phrase : Phrase} : Derives (.optional phrase) []
  | present {phrase : Phrase} {tokens : List Token} (chosen : Derives phrase tokens) :
      Derives (.optional phrase) tokens
  | manyEnd {phrase : Phrase} : Derives (.many phrase) []
  | manyMore {phrase : Phrase} {left right : List Token} (once : Derives phrase left)
      (again : Derives (.many phrase) right) : Derives (.many phrase) (left ++ right)
  | upToEnd {most : Nat} {phrase : Phrase} : Derives (.upTo most phrase) []
  | upToMore {most : Nat} {phrase : Phrase} {left right : List Token} (once : Derives phrase left)
      (again : Derives (.upTo most phrase) right) :
      Derives (.upTo (most + 1) phrase) (left ++ right)

/-- The productions of expressions, by how tightly they bind. -/
inductive Tier where
  | assignment
  | operation (level : Precedence)
  | unary
  | call
  | primary

/-- What the operands of a level are. -/
def operandTier : Precedence → Tier
  | .disjunction => .operation .conjunction
  | .conjunction => .operation .equality
  | .equality => .operation .comparison
  | .comparison => .operation .term
  | .term => .operation .factor
  | .factor => .unary

/-- The operators of a level. -/
def operators : Precedence → List Terminal
  | .disjunction => [.keyword .orWord]
  | .conjunction => [.keyword .andWord]
  | .equality => [.symbol .bangEqual, .symbol .equalEqual]
  | .comparison =>
    [.symbol .greater, .symbol .greaterEqual, .symbol .less, .symbol .lessEqual]
  | .term => [.symbol .minus, .symbol .plus]
  | .factor => [.symbol .slash, .symbol .star]

/-- Rows of tokens with a comma between any two of them. -/
inductive Separated : List (List Token) → List Token → Prop where
  | none : Separated [] []
  | one (tokens : List Token) : Separated [tokens] tokens
  | more {first second rest : List Token} {others : List (List Token)} {comma : Token}
      (isComma : comma.kind = .symbol .comma) (behind : Separated (second :: others) rest) :
      Separated (first :: second :: others) (first ++ comma :: rest)

/-- A row of tokens is an expression of a tier, and this is its tree. -/
inductive Expression : Tier → List Token → Expr Unit → Prop where
  | assignVariable {name equals : Token} {tokens : List Token} {value : Expr Unit}
      (isName : name.kind = .identifier) (isEqual : equals.kind = .symbol .equal)
      (source : Expression .assignment tokens value) :
      Expression .assignment (name :: equals :: tokens) (.assign () name value)
  | assignProperty {before tokens : List Token} {object value : Expr Unit}
      {dot name equals : Token} (owner : Expression .call before object)
      (isDot : dot.kind = .symbol .dot) (isName : name.kind = .identifier)
      (isEqual : equals.kind = .symbol .equal) (source : Expression .assignment tokens value) :
      Expression .assignment (before ++ dot :: name :: equals :: tokens)
        (.set object name value)
  | unassigned {tokens : List Token} {expr : Expr Unit}
      (whole : Expression (.operation .disjunction) tokens expr) :
      Expression .assignment tokens expr
  /-- Operations group to the left. -/
  | operation {level : Precedence} {before behind : List Token} {left right : Expr Unit}
      {operator : Token} {terminal : Terminal}
      (first : Expression (.operation level) before left)
      (listed : terminal ∈ operators level) (same : terminal.Matches operator)
      (second : Expression (operandTier level) behind right) :
      Expression (.operation level) (before ++ operator :: behind)
        (level.node left operator right)
  | operand {level : Precedence} {tokens : List Token} {expr : Expr Unit}
      (whole : Expression (operandTier level) tokens expr) :
      Expression (.operation level) tokens expr
  | unary {operator : Token} {tokens : List Token} {operand : Expr Unit}
      (isOperator : operator.kind = .symbol .bang ∨ operator.kind = .symbol .minus)
      (behind : Expression .unary tokens operand) :
      Expression .unary (operator :: tokens) (.unary operator operand)
  | noPrefix {tokens : List Token} {expr : Expr Unit} (whole : Expression .call tokens expr) :
      Expression .unary tokens expr
  | call {before inside : List Token} {callee : Expr Unit} {opening closing : Token}
      {rows : List (List Token × Expr Unit)} (called : Expression .call before callee)
      (isOpening : opening.kind = .symbol .leftParen)
      (separated : Separated (rows.map Prod.fst) inside)
      (arguments : ∀ row ∈ rows, Expression .assignment row.1 row.2) (few : rows.length ≤ 8)
      (isClosing : closing.kind = .symbol .rightParen) :
      Expression .call (before ++ opening :: (inside ++ [closing]))
        (.call callee closing (rows.map Prod.snd))
  | property {before : List Token} {object : Expr Unit} {dot name : Token}
      (owner : Expression .call before object) (isDot : dot.kind = .symbol .dot)
      (isName : name.kind = .identifier) :
      Expression .call (before ++ [dot, name]) (.get object name)
  | primary {tokens : List Token} {expr : Expr Unit} (whole : Expression .primary tokens expr) :
      Expression .call tokens expr
  | number {token : Token} {value : Float} (same : token.kind = .number value) :
      Expression .primary [token] (.literal (.number value))
  | string {token : Token} {text : String} (same : token.kind = .string text) :
      Expression .primary [token] (.literal (.string text))
  | trueWord {token : Token} (same : token.kind = .keyword .trueWord) :
      Expression .primary [token] (.literal (.boolean true))
  | falseWord {token : Token} (same : token.kind = .keyword .falseWord) :
      Expression .primary [token] (.literal (.boolean false))
  | nilWord {token : Token} (same : token.kind = .keyword .nilWord) :
      Expression .primary [token] (.literal .nil)
  | thisWord {token : Token} (same : token.kind = .keyword .thisWord) :
      Expression .primary [token] (.this () token)
  | reference {token : Token} (same : token.kind = .identifier) :
      Expression .primary [token] (.variable () token)
  | grouping {opening closing : Token} {tokens : List Token} {inner : Expr Unit}
      (isOpening : opening.kind = .symbol .leftParen)
      (inside : Expression .assignment tokens inner)
      (isClosing : closing.kind = .symbol .rightParen) :
      Expression .primary (opening :: (tokens ++ [closing])) (.grouping inner)

/-- An expression that may be left out. -/
inductive OptionalExpression : List Token → Option (Expr Unit) → Prop where
  | absent : OptionalExpression [] none
  | present {tokens : List Token} {expr : Expr Unit}
      (whole : Expression .assignment tokens expr) : OptionalExpression tokens (some expr)

/-- An expression with the semicolon that makes it a statement. -/
inductive ExpressionStatement : List Token → Stmt Unit → Prop where
  | intro {tokens : List Token} {expr : Expr Unit} {semicolon : Token}
      (whole : Expression .assignment tokens expr)
      (isSemicolon : semicolon.kind = .symbol .semicolon) :
      ExpressionStatement (tokens ++ [semicolon]) (.expression expr)

/-- The declaration of a variable. -/
inductive VariableDeclaration : List Token → Stmt Unit → Prop where
  | bare {opening name semicolon : Token} (isVar : opening.kind = .keyword .varWord)
      (isName : name.kind = .identifier) (isSemicolon : semicolon.kind = .symbol .semicolon) :
      VariableDeclaration [opening, name, semicolon] (.varDecl name none)
  | initialized {opening name equals semicolon : Token} {tokens : List Token}
      {value : Expr Unit} (isVar : opening.kind = .keyword .varWord)
      (isName : name.kind = .identifier) (isEqual : equals.kind = .symbol .equal)
      (source : Expression .assignment tokens value)
      (isSemicolon : semicolon.kind = .symbol .semicolon) :
      VariableDeclaration (opening :: name :: equals :: (tokens ++ [semicolon]))
        (.varDecl name (some value))

/-- The first clause of a loop, with its semicolon. -/
inductive Initializer : List Token → Option (Stmt Unit) → Prop where
  | absent {semicolon : Token} (isSemicolon : semicolon.kind = .symbol .semicolon) :
      Initializer [semicolon] none
  | declaration {tokens : List Token} {stmt : Stmt Unit}
      (whole : VariableDeclaration tokens stmt) : Initializer tokens (some stmt)
  | expression {tokens : List Token} {stmt : Stmt Unit}
      (whole : ExpressionStatement tokens stmt) : Initializer tokens (some stmt)

/-- The conditional loop that a loop with a condition and an increment stands
for: without a condition it is always entered again, and the increment is the
last statement of its body. -/
def roundsTree (condition increment : Option (Expr Unit)) (body : Stmt Unit) : Stmt Unit :=
  match condition, increment with
  | some condition, some increment => .whileLoop condition (.block [body, .expression increment])
  | some condition, none => .whileLoop condition body
  | none, some increment =>
    .whileLoop (.literal (.boolean true)) (.block [body, .expression increment])
  | none, none => .whileLoop (.literal (.boolean true)) body

/-- The statement that a loop with clauses stands for: its initializer, if it
has one, and the conditional loop share a block. -/
def loopTree (initializer : Option (Stmt Unit)) (condition increment : Option (Expr Unit))
    (body : Stmt Unit) : Stmt Unit :=
  match initializer with
  | some initializer => .block [initializer, roundsTree condition increment body]
  | none => roundsTree condition increment body

/-- The productions whose trees are statements. -/
inductive Form where
  | declaration
  | statement
  /-- A function behind the word that announces it; its tree is that of the
  declaration. -/
  | function

/-- A row of tokens has a form, this is its tree, and the truth value tells
whether an `else` behind it would belong to it. -/
inductive Statement : Form → List Token → Stmt Unit → Bool → Prop where
  | classDecl {opening name left right : Token} {tokens : List Token}
      {rows : List (List Token × FunctionDecl Unit)} (isClass : opening.kind = .keyword .classWord)
      (isName : name.kind = .identifier) (isLeft : left.kind = .symbol .leftBrace)
      (methods : ∀ row ∈ rows, Statement .function row.1 (.funDecl row.2) false)
      (joined : tokens = (rows.map Prod.fst).flatten)
      (isRight : right.kind = .symbol .rightBrace) :
      Statement .declaration (opening :: name :: left :: (tokens ++ [right]))
        (.classDecl name (rows.map Prod.snd)) false
  | funDecl {opening : Token} {tokens : List Token} {stmt : Stmt Unit}
      (isFun : opening.kind = .keyword .funWord) (whole : Statement .function tokens stmt false) :
      Statement .declaration (opening :: tokens) stmt false
  | varDecl {tokens : List Token} {stmt : Stmt Unit} (whole : VariableDeclaration tokens stmt) :
      Statement .declaration tokens stmt false
  | statement {tokens : List Token} {stmt : Stmt Unit} {dangling : Bool}
      (whole : Statement .statement tokens stmt dangling) :
      Statement .declaration tokens stmt dangling
  | function {name left right opening closing : Token} {inside tokens : List Token}
      {parameters : List Token} {rows : List (List Token × Stmt Unit × Bool)}
      (isName : name.kind = .identifier) (isLeft : left.kind = .symbol .leftParen)
      (separated : Separated (parameters.map fun parameter => [parameter]) inside)
      (areNames : ∀ parameter ∈ parameters, parameter.kind = .identifier)
      (few : parameters.length ≤ 8) (isRight : right.kind = .symbol .rightParen)
      (isOpening : opening.kind = .symbol .leftBrace)
      (body : ∀ row ∈ rows, Statement .declaration row.1 row.2.1 row.2.2)
      (joined : tokens = (rows.map Prod.fst).flatten)
      (isClosing : closing.kind = .symbol .rightBrace) :
      Statement .function
        (name :: left :: (inside ++ right :: opening :: (tokens ++ [closing])))
        (.funDecl (.mk name parameters (rows.map fun row => row.2.1))) false
  | expression {tokens : List Token} {stmt : Stmt Unit}
      (whole : ExpressionStatement tokens stmt) : Statement .statement tokens stmt false
  | loop {opening left semicolon right : Token} {first second third tokens : List Token}
      {initializer : Option (Stmt Unit)} {condition increment : Option (Expr Unit)}
      {body : Stmt Unit} {dangling : Bool} (isFor : opening.kind = .keyword .forWord)
      (isLeft : left.kind = .symbol .leftParen) (before : Initializer first initializer)
      (guard : OptionalExpression second condition)
      (isSemicolon : semicolon.kind = .symbol .semicolon)
      (step : OptionalExpression third increment) (isRight : right.kind = .symbol .rightParen)
      (inside : Statement .statement tokens body dangling) :
      Statement .statement
        (opening :: left :: (first ++ second ++ semicolon :: (third ++ right :: tokens)))
        (loopTree initializer condition increment body) dangling
  | conditional {opening left right : Token} {guard tokens : List Token}
      {condition : Expr Unit} {onTrue : Stmt Unit} {dangling : Bool}
      (isIf : opening.kind = .keyword .ifWord) (isLeft : left.kind = .symbol .leftParen)
      (test : Expression .assignment guard condition)
      (isRight : right.kind = .symbol .rightParen)
      (branch : Statement .statement tokens onTrue dangling) :
      Statement .statement (opening :: left :: (guard ++ right :: tokens))
        (.conditional condition onTrue none) true
  /-- The branch in front of an `else` is one that could not take it. -/
  | alternative {opening left right otherwise : Token} {guard tokens others : List Token}
      {condition : Expr Unit} {onTrue onFalse : Stmt Unit} {dangling : Bool}
      (isIf : opening.kind = .keyword .ifWord) (isLeft : left.kind = .symbol .leftParen)
      (test : Expression .assignment guard condition)
      (isRight : right.kind = .symbol .rightParen)
      (branch : Statement .statement tokens onTrue false)
      (isElse : otherwise.kind = .keyword .elseWord)
      (other : Statement .statement others onFalse dangling) :
      Statement .statement
        (opening :: left :: (guard ++ right :: (tokens ++ otherwise :: others)))
        (.conditional condition onTrue (some onFalse)) dangling
  | print {opening semicolon : Token} {tokens : List Token} {expr : Expr Unit}
      (isPrint : opening.kind = .keyword .printWord)
      (whole : Expression .assignment tokens expr)
      (isSemicolon : semicolon.kind = .symbol .semicolon) :
      Statement .statement (opening :: (tokens ++ [semicolon])) (.print expr) false
  | returning {opening semicolon : Token} {tokens : List Token} {value : Option (Expr Unit)}
      (isReturn : opening.kind = .keyword .returnWord) (whole : OptionalExpression tokens value)
      (isSemicolon : semicolon.kind = .symbol .semicolon) :
      Statement .statement (opening :: (tokens ++ [semicolon])) (.returning opening value) false
  | whileLoop {opening left right : Token} {guard tokens : List Token} {condition : Expr Unit}
      {body : Stmt Unit} {dangling : Bool} (isWhile : opening.kind = .keyword .whileWord)
      (isLeft : left.kind = .symbol .leftParen)
      (test : Expression .assignment guard condition)
      (isRight : right.kind = .symbol .rightParen)
      (inside : Statement .statement tokens body dangling) :
      Statement .statement (opening :: left :: (guard ++ right :: tokens))
        (.whileLoop condition body) dangling
  | block {left right : Token} {tokens : List Token}
      {rows : List (List Token × Stmt Unit × Bool)} (isLeft : left.kind = .symbol .leftBrace)
      (body : ∀ row ∈ rows, Statement .declaration row.1 row.2.1 row.2.2)
      (joined : tokens = (rows.map Prod.fst).flatten)
      (isRight : right.kind = .symbol .rightBrace) :
      Statement .statement (left :: (tokens ++ [right])) (.block (rows.map fun row => row.2.1))
        false

/-- A row of tokens is a program, and these are its statements. -/
def ProgramTree (tokens : List Token) (statements : List (Stmt Unit)) : Prop :=
  ∃ rows : List (List Token × Stmt Unit × Bool),
    (∀ row ∈ rows, Statement .declaration row.1 row.2.1 row.2.2) ∧
      tokens = (rows.map Prod.fst).flatten ∧ statements = rows.map fun row => row.2.1

end Lox.Grammar
