/-
# The token stream of a text

Every segment that is a token or faulty gives one item of the stream; blanks
give none.  After the last segment comes the mark for the end of input, so the
stream of any text, even an empty one, ends with a token.

An item stands on the line on which its segment ends: one more than the number
of newlines up to there.
-/

import Lox.Segment

namespace Lox

/-- An item of a token stream. -/
inductive StreamItem where
  | token (token : Token)
  | error (fault : LexicalFault) (line : Nat)
deriving DecidableEq

namespace StreamItem

/-- The token of an item, if it is one. -/
def token? : StreamItem → Option Token
  | .token found => some found
  | .error .. => none

/-- The error of an item, if it is one. -/
def error? : StreamItem → Option StaticError
  | .token _ => none
  | .error fault line => some (.lexical fault line)

end StreamItem

namespace Segment

/-- The number of newlines in a segment. -/
def newlines (segment : Segment) : Nat :=
  segment.text.count '\n'

/-- What a segment that ends on a line adds to the stream. -/
def item? (segment : Segment) (line : Nat) : Option StreamItem :=
  match segment.kind with
  | .blank => none
  | .token kind => some (.token ⟨kind, String.ofList segment.text, line⟩)
  | .faulty fault => some (.error fault line)

end Segment

/-- The stream of a row of segments whose first one starts on a line. -/
def streamFrom (line : Nat) : List Segment → List StreamItem
  | [] => [.token (.atEnd line)]
  | segment :: rest =>
    let line := line + segment.newlines
    (segment.item? line).toList ++ streamFrom line rest

/-- The token stream of a text. -/
def scan (source : String) : List StreamItem :=
  streamFrom 1 (segments source.toList)

/-- The tokens of a text, the end of input included. -/
def tokensOf (source : String) : List Token :=
  (scan source).filterMap StreamItem.token?

/-- The lexical errors of a text. -/
def lexicalErrorsOf (source : String) : List StaticError :=
  (scan source).filterMap StreamItem.error?

end Lox
