/-
# Tokens of the language

A token is one word of a program: its kind, the text that spelled it, and the
line on which that text ended.  Punctuation and reserved words are closed
enumerations with a fixed spelling each; a string or number literal carries
its value in its kind, so that nothing after the scanner looks at spelling
again.

The module also fixes the upper-case name by which listings call each kind.
-/

namespace Lox

/-- The punctuation of the language. -/
inductive Symbol where
  | leftParen
  | rightParen
  | leftBrace
  | rightBrace
  | comma
  | dot
  | minus
  | plus
  | semicolon
  | slash
  | star
  | bang
  | bangEqual
  | equal
  | equalEqual
  | greater
  | greaterEqual
  | less
  | lessEqual
deriving DecidableEq

namespace Symbol

/-- Every symbol, in the order of declaration. -/
def all : List Symbol :=
  [leftParen, rightParen, leftBrace, rightBrace, comma, dot, minus, plus, semicolon, slash, star,
    bang, bangEqual, equal, equalEqual, greater, greaterEqual, less, lessEqual]

/-- The characters that spell a symbol. -/
def spelling : Symbol → String
  | leftParen => "("
  | rightParen => ")"
  | leftBrace => "\x7b"
  | rightBrace => "\x7d"
  | comma => ","
  | dot => "."
  | minus => "-"
  | plus => "+"
  | semicolon => ";"
  | slash => "/"
  | star => "*"
  | bang => "!"
  | bangEqual => "!="
  | equal => "="
  | equalEqual => "=="
  | greater => ">"
  | greaterEqual => ">="
  | less => "<"
  | lessEqual => "<="

/-- The name of a symbol in token listings. -/
def name : Symbol → String
  | leftParen => "LEFT_PAREN"
  | rightParen => "RIGHT_PAREN"
  | leftBrace => "LEFT_BRACE"
  | rightBrace => "RIGHT_BRACE"
  | comma => "COMMA"
  | dot => "DOT"
  | minus => "MINUS"
  | plus => "PLUS"
  | semicolon => "SEMICOLON"
  | slash => "SLASH"
  | star => "STAR"
  | bang => "BANG"
  | bangEqual => "BANG_EQUAL"
  | equal => "EQUAL"
  | equalEqual => "EQUAL_EQUAL"
  | greater => "GREATER"
  | greaterEqual => "GREATER_EQUAL"
  | less => "LESS"
  | lessEqual => "LESS_EQUAL"

end Symbol

/-- The reserved words of the language.  Each constructor is the word it
stands for, followed by `Word`. -/
inductive Keyword where
  | andWord
  | classWord
  | elseWord
  | falseWord
  | funWord
  | forWord
  | ifWord
  | nilWord
  | orWord
  | printWord
  | returnWord
  | superWord
  | thisWord
  | trueWord
  | varWord
  | whileWord
deriving DecidableEq

namespace Keyword

/-- Every reserved word, in the order of declaration. -/
def all : List Keyword :=
  [andWord, classWord, elseWord, falseWord, funWord, forWord, ifWord, nilWord, orWord, printWord,
    returnWord, superWord, thisWord, trueWord, varWord, whileWord]

/-- The letters that spell a reserved word. -/
def spelling : Keyword → String
  | andWord => "and"
  | classWord => "class"
  | elseWord => "else"
  | falseWord => "false"
  | funWord => "fun"
  | forWord => "for"
  | ifWord => "if"
  | nilWord => "nil"
  | orWord => "or"
  | printWord => "print"
  | returnWord => "return"
  | superWord => "super"
  | thisWord => "this"
  | trueWord => "true"
  | varWord => "var"
  | whileWord => "while"

/-- The reserved word with a given spelling, if there is one. -/
def ofSpelling? (word : String) : Option Keyword :=
  all.find? fun keyword => keyword.spelling = word

/-- The name of a reserved word in token listings: its spelling in capitals. -/
def name (keyword : Keyword) : String :=
  keyword.spelling.toUpper

end Keyword

/-- What sort of word a token is.  Literals carry their value. -/
inductive TokenKind where
  | symbol (symbol : Symbol)
  | keyword (keyword : Keyword)
  | identifier
  /-- A string literal with the text between its quotes. -/
  | string (text : String)
  /-- A number literal with its value. -/
  | number (value : Float)
  /-- The mark after the last word of a program. -/
  | endOfInput
deriving DecidableEq

/-- The name of a kind in token listings; the value of a literal is no part
of it. -/
def TokenKind.name : TokenKind → String
  | .symbol s => s.name
  | .keyword k => k.name
  | .identifier => "IDENTIFIER"
  | .string _ => "STRING"
  | .number _ => "NUMBER"
  | .endOfInput => "EOF"

/-- One word of a program. -/
structure Token where
  /-- What sort of word it is. -/
  kind : TokenKind
  /-- The text that spelled it. -/
  lexeme : String
  /-- The line, counted from one, on which its text ended. -/
  line : Nat
deriving DecidableEq

namespace Token

/-- The mark that ends the tokens of a text whose last line is `line`. -/
def atEnd (line : Nat) : Token :=
  ⟨.endOfInput, "", line⟩

/-- Whether a token is a given symbol. -/
def isSymbol (token : Token) (symbol : Symbol) : Bool :=
  token.kind = .symbol symbol

/-- Whether a token is a given reserved word. -/
def isKeyword (token : Token) (keyword : Keyword) : Bool :=
  token.kind = .keyword keyword

/-- Whether a token is a name that the program chose. -/
def isIdentifier (token : Token) : Bool :=
  token.kind = .identifier

/-- Whether a token is the mark after the last word. -/
def isEnd (token : Token) : Bool :=
  token.kind = .endOfInput

end Token

end Lox
