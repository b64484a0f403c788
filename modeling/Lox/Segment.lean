/-
# Cutting a text into segments

A text is a row of segments: words, numbers, strings, operators, single blank
characters, comments, and pieces that the language has no use for.  `cut`
takes the longest segment off the front of a text that is not empty;
`segments` cuts until nothing is left.  No character is lost and none is read
twice, so the segments of a text, put end to end, are the text.

A segment knows what it stands for.  Tokens carry the value of their literal,
blanks stand for nothing, and faulty segments name their fault.  Lines are no
concern of this module.
-/

import Lox.Fault
import Lox.Number.Decimal

namespace Lox

/-- What a segment of a text stands for. -/
inductive SegmentKind where
  /-- A blank character or a comment. -/
  | blank
  | token (kind : TokenKind)
  | faulty (fault : LexicalFault)
deriving DecidableEq

/-- A piece of a text. -/
structure Segment where
  text : List Char
  kind : SegmentKind
deriving DecidableEq

/-- A segment and what follows it. -/
structure Cut where
  segment : Segment
  rest : List Char

/-- A character that can start a word. -/
def isWordStart (character : Char) : Bool :=
  character.isAlpha || character = '_'

/-- A character that can continue a word. -/
def isWordPart (character : Char) : Bool :=
  isWordStart character || character.isDigit

/-- The symbol that a character alone spells, whatever follows it. -/
def Symbol.ofCharacter? : Char → Option Symbol
  | '(' => some .leftParen
  | ')' => some .rightParen
  | '\x7b' => some .leftBrace
  | '\x7d' => some .rightBrace
  | ',' => some .comma
  | '.' => some .dot
  | '-' => some .minus
  | '+' => some .plus
  | ';' => some .semicolon
  | '*' => some .star
  | _ => none

/-- The symbols that a character spells alone and before `=`. -/
def Symbol.ofComparison? : Char → Option (Symbol × Symbol)
  | '!' => some (.bang, .bangEqual)
  | '=' => some (.equal, .equalEqual)
  | '<' => some (.less, .lessEqual)
  | '>' => some (.greater, .greaterEqual)
  | _ => none

namespace Cut

/-- A segment that is one token. -/
def ofToken (text : List Char) (kind : TokenKind) (rest : List Char) : Cut :=
  ⟨⟨text, .token kind⟩, rest⟩

/-- The word that starts with a character.  A word with the spelling of a
reserved word is that reserved word. -/
def word (first : Char) (rest : List Char) : Cut :=
  let text := first :: rest.takeWhile isWordPart
  let kind :=
    match Keyword.ofSpelling? (String.ofList text) with
    | some keyword => .keyword keyword
    | none => .identifier
  ofToken text kind (rest.dropWhile isWordPart)

/-- The fraction of a number, without its point, and what follows it: a point
belongs to a number only if a digit follows. -/
def fraction? : List Char → Option (List Char × List Char)
  | '.' :: digit :: rest =>
    if digit.isDigit then
      some (digit :: rest.takeWhile Char.isDigit, rest.dropWhile Char.isDigit)
    else none
  | _ => none

/-- The float spelled by the digits before and after the point. -/
def numberValue (whole fraction : List Char) : Float :=
  Binary64.toFloat false (Decimal.ofDigits whole fraction).nearest

/-- The number that starts with a digit. -/
def number (first : Char) (rest : List Char) : Cut :=
  let whole := first :: rest.takeWhile Char.isDigit
  let afterWhole := rest.dropWhile Char.isDigit
  match fraction? afterWhole with
  | some (fraction, rest) =>
    ofToken (whole ++ '.' :: fraction) (.number (numberValue whole fraction)) rest
  | none => ofToken whole (.number (numberValue whole [])) afterWhole

/-- The string whose opening quote has been read.  Without a closing quote
everything that is left is one faulty segment. -/
def string (rest : List Char) : Cut :=
  let inside := rest.takeWhile (· ≠ '"')
  match rest.dropWhile (· ≠ '"') with
  | quote :: rest =>
    ofToken ('"' :: inside ++ [quote]) (.string (String.ofList inside)) rest
  | [] => ⟨⟨'"' :: rest, .faulty .unterminatedString⟩, []⟩

/-- The text up to and including the first `*/`, and what follows it. -/
def throughCommentEnd? : List Char → Option (List Char × List Char)
  | [] => none
  | '*' :: '/' :: rest => some (['*', '/'], rest)
  | character :: rest =>
    (throughCommentEnd? rest).map fun (inside, rest) => (character :: inside, rest)

/-- What a slash starts: a comment up to the end of its line, a comment up to
the next `*/`, or just a slash. -/
def slash : List Char → Cut
  | '/' :: rest =>
    ⟨⟨'/' :: '/' :: rest.takeWhile (· ≠ '\n'), .blank⟩, rest.dropWhile (· ≠ '\n')⟩
  | '*' :: rest =>
    match throughCommentEnd? rest with
    | some (inside, rest) => ⟨⟨'/' :: '*' :: inside, .blank⟩, rest⟩
    | none => ⟨⟨'/' :: '*' :: rest, .faulty .unterminatedComment⟩, []⟩
  | rest => ofToken ['/'] (.symbol .slash) rest

/-- What a character that spells two symbols starts: the longer one if `=`
follows. -/
def comparison (first : Char) (alone beforeEqual : Symbol) : List Char → Cut
  | '=' :: rest => ofToken [first, '='] (.symbol beforeEqual) rest
  | rest => ofToken [first] (.symbol alone) rest

/-- A character that separates segments and stands for nothing. -/
def isBlank (character : Char) : Bool :=
  character = ' ' || character = '\r' || character = '\t' || character = '\n'

end Cut

open Cut in
/-- Takes the first segment off a text, given by its first character and the
rest. -/
def cut (first : Char) (rest : List Char) : Cut :=
  if isBlank first then ⟨⟨[first], .blank⟩, rest⟩
  else if isWordStart first then word first rest
  else if first.isDigit then number first rest
  else if first = '"' then string rest
  else if first = '/' then slash rest
  else
    match Symbol.ofCharacter? first, Symbol.ofComparison? first with
    | some symbol, _ => ofToken [first] (.symbol symbol) rest
    | none, some (alone, beforeEqual) => comparison first alone beforeEqual rest
    | none, none => ⟨⟨[first], .faulty (.unexpectedCharacter first)⟩, rest⟩

namespace Cut

theorem text_fraction? {text fraction rest : List Char}
    (found : fraction? text = some (fraction, rest)) : '.' :: fraction ++ rest = text := by
  unfold fraction? at found
  split at found
  · split at found
    · simp only [Option.some.injEq, Prod.mk.injEq] at found
      simp [← found.1, ← found.2]
    · simp at found
  · simp at found

theorem text_throughCommentEnd? {text inside rest : List Char}
    (found : throughCommentEnd? text = some (inside, rest)) : inside ++ rest = text := by
  fun_induction throughCommentEnd? text generalizing inside with
  | case1 => simp at found
  | case2 rest =>
    simp only [Option.some.injEq, Prod.mk.injEq] at found
    simp [← found.1, ← found.2]
  | case3 character after _ ih =>
    simp only [Option.map_eq_some_iff, Prod.exists, Prod.mk.injEq] at found
    obtain ⟨start, tail, hfound, rfl, rfl⟩ := found
    simp [ih hfound]

/-- A word and what follows it are the text that was cut. -/
theorem text_word (first : Char) (rest : List Char) :
    (word first rest).segment.text ++ (word first rest).rest = first :: rest := by
  simp [word, ofToken]

/-- A number and what follows it are the text that was cut. -/
theorem text_number (first : Char) (rest : List Char) :
    (number first rest).segment.text ++ (number first rest).rest = first :: rest := by
  simp only [number]
  split
  · next found =>
    have := text_fraction? found
    simp only [ofToken, List.cons_append, List.append_assoc]
    simp only [List.cons_append] at this
    simp [this]
  · simp [ofToken]

/-- A string and what follows it are the text that was cut. -/
theorem text_string (rest : List Char) :
    (string rest).segment.text ++ (string rest).rest = '"' :: rest := by
  simp only [string]
  split
  · next quote more found =>
    simp only [ofToken, List.cons_append, List.append_assoc, List.nil_append, ← found]
    simp
  · simp

/-- What a slash starts and what follows it are the text that was cut. -/
theorem text_slash (rest : List Char) :
    (slash rest).segment.text ++ (slash rest).rest = '/' :: rest := by
  unfold slash
  split
  · simp
  · split
    · next found => simp [text_throughCommentEnd? found]
    · simp
  · simp [ofToken]

/-- An operator and what follows it are the text that was cut. -/
theorem text_comparison (first : Char) (alone beforeEqual : Symbol) (rest : List Char) :
    (comparison first alone beforeEqual rest).segment.text ++
      (comparison first alone beforeEqual rest).rest = first :: rest := by
  unfold comparison
  split <;> simp [ofToken]

end Cut

/-- Cutting loses nothing: the segment and the rest are the text. -/
theorem text_cut (first : Char) (rest : List Char) :
    (cut first rest).segment.text ++ (cut first rest).rest = first :: rest := by
  unfold cut
  split
  · rfl
  split
  · exact Cut.text_word first rest
  split
  · exact Cut.text_number first rest
  split
  · next isQuote => rw [isQuote]; exact Cut.text_string rest
  split
  · next isSlash => rw [isSlash]; exact Cut.text_slash rest
  split
  · rfl
  · exact Cut.text_comparison ..
  · rfl

/-- A segment is never empty. -/
theorem text_cut_ne_nil (first : Char) (rest : List Char) :
    (cut first rest).segment.text ≠ [] := by
  unfold cut
  split
  · simp
  split
  · simp [Cut.word, Cut.ofToken]
  split
  · simp only [Cut.number]
    split <;> simp [Cut.ofToken]
  split
  · simp only [Cut.string]
    split <;> simp [Cut.ofToken]
  split
  · simp only [Cut.slash]
    split
    · simp
    · split <;> simp
    · simp [Cut.ofToken]
  split
  · simp [Cut.ofToken]
  · unfold Cut.comparison
    split <;> simp [Cut.ofToken]
  · simp

/-- What follows a segment is shorter than the text. -/
theorem length_rest_cut (first : Char) (rest : List Char) :
    (cut first rest).rest.length < (first :: rest).length := by
  have whole := congrArg List.length (text_cut first rest)
  have some := List.length_pos_iff.2 (text_cut_ne_nil first rest)
  rw [List.length_append] at whole
  omega

/-- The segments of a text, from left to right. -/
def segments : List Char → List Segment
  | [] => []
  | first :: rest => (cut first rest).segment :: segments (cut first rest).rest
termination_by text => text.length
decreasing_by exact length_rest_cut first rest

/-- The segments of a text, put end to end, are the text. -/
theorem flatMap_text_segments (text : List Char) :
    (segments text).flatMap Segment.text = text := by
  fun_induction segments text with
  | case1 => rfl
  | case2 first rest ih => rw [List.flatMap_cons, ih, text_cut]

end Lox
