/-
# Token listings

A token is listed on one line as the name of its kind, its lexeme and the
value of its literal, or as a JSON object with its kind, lexeme and line.  In
JSON a literal's kind is an object that pairs the name with the value.
-/

import Lox.Token
import Lox.Number.Style
import Lox.Text.Json

namespace Lox

/-- The value of a literal in a listing; other tokens have none. -/
def TokenKind.listedValue : TokenKind → String
  | .string text => text
  | .number value => NumberStyle.listing.write value
  | _ => "null"

/-- The kind of a token in JSON text. -/
def TokenKind.json : TokenKind → String
  | .string text => "\x7b\"STRING\":" ++ Text.jsonString text ++ "\x7d"
  | .number value => "\x7b\"NUMBER\":" ++ jsonNumber value ++ "\x7d"
  | kind => Text.jsonString kind.name

namespace Token

/-- A token as a line of a listing. -/
def listing (token : Token) : String :=
  token.kind.name ++ " " ++ token.lexeme ++ " " ++ token.kind.listedValue

/-- A token as JSON text. -/
def json (token : Token) : String :=
  "\x7b\"token_type\":" ++ token.kind.json ++ ",\"lexeme\":" ++ Text.jsonString token.lexeme ++
    ",\"line\":" ++ toString token.line ++ "\x7d"

end Token

end Lox
