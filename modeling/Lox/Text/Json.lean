/-
# JSON strings

A JSON string escapes the quote, the backslash and the control characters
below the space; the five control characters with a short escape use it.
Everything else stands for itself.
-/

namespace Lox.Text

/-- The sixteen hexadecimal digits. -/
def hexDigit (value : Nat) : Char :=
  (Nat.toDigits 16 (value % 16)).headD '0'

/-- A character inside a JSON string. -/
def jsonCharacter (character : Char) : List Char :=
  match character with
  | '"' => ['\\', '"']
  | '\\' => ['\\', '\\']
  | '\x08' => ['\\', 'b']
  | '\x0c' => ['\\', 'f']
  | '\n' => ['\\', 'n']
  | '\r' => ['\\', 'r']
  | '\t' => ['\\', 't']
  | _ =>
    if character.toNat < 32 then
      ['\\', 'u', '0', '0', hexDigit (character.toNat / 16), hexDigit character.toNat]
    else [character]

/-- A text as a JSON string. -/
def jsonString (text : String) : String :=
  String.ofList ('"' :: text.toList.flatMap jsonCharacter ++ ['"'])

end Lox.Text
