/-
# Reading a phrase off the front of a row of tokens

A reading is what came of reading one phrase: either the phrase and the tokens
after it, or the fault that stopped the reading and the tokens from the one at
which it was noticed.  Faults that were noticed without stopping are kept in
the order in which they were noticed.

The type carries a bound: after a phrase fewer than `within` tokens are left,
and a reading that was stopped left at most so many.  A phrase that takes at
least one of some tokens is thus a reading within their number, and a phrase
that may take none a reading within one more.  Loops over readings end because
of this bound, and need no other measure.

The tokens here are those before the end of input.  A fault without a place
was noticed at the end.
-/

import Lox.Fault

namespace Lox

/-- A syntax fault and the token at which it was noticed; none stands for the
end of input. -/
structure Notice where
  fault : SyntaxFault
  place : Option Token
deriving DecidableEq

/-- The static error of a notice, for an input that ends on a line. -/
def Notice.error (endLine : Nat) (notice : Notice) : StaticError :=
  .grammatical notice.fault (notice.place.getD (.atEnd endLine))

/-- What came of reading a phrase, with a bound on the tokens that are left. -/
inductive Reading (α : Type) (within : Nat) where
  /-- The phrase was read and `rest` follows it. -/
  | done (value : α) (notices : List Notice) (rest : List Token) (shorter : rest.length < within)
  /-- A fault was noticed at the first token of `rest`. -/
  | stuck (notices : List Notice) (fault : SyntaxFault) (rest : List Token)
      (bound : rest.length ≤ within)

namespace Reading

variable {α β : Type} {n : Nat}

/-- The same reading seen from one token further in front. -/
def behind : Reading α n → Reading α (n + 1)
  | done value notices rest shorter => done value notices rest (Nat.lt_succ_of_lt shorter)
  | stuck notices fault rest bound => stuck notices fault rest (Nat.le_succ_of_le bound)

/-- The same reading with another phrase. -/
def map (f : α → β) : Reading α n → Reading β n
  | done value notices rest shorter => done (f value) notices rest shorter
  | stuck notices fault rest bound => stuck notices fault rest bound

/-- The same reading after other notices. -/
def noticing (earlier : List Notice) : Reading α n → Reading α n
  | done value notices rest shorter => done value (earlier ++ notices) rest shorter
  | stuck notices fault rest bound => stuck (earlier ++ notices) fault rest bound

/-- A reading of the tokens that another phrase left, seen from in front of this
phrase, in which these faults were noticed. -/
def following (notices : List Notice) {left : List Token} (shorter : left.length < n) :
    Reading α (left.length + 1) → Reading α n
  | done value more rest shorter' =>
    done value (notices ++ more) rest (Nat.lt_of_lt_of_le shorter' shorter)
  | stuck more fault rest bound => stuck (notices ++ more) fault rest (Nat.le_trans bound shorter)

end Reading

/-- An action that reads a phrase. -/
def Reader (m : Type → Type) (α : Type) (within : Nat) : Type :=
  m (Reading α within)

namespace Reader

variable {m : Type → Type} [Monad m] {α β : Type} {n : Nat}

/-- Reads a phrase that takes no tokens. -/
def still (value : α) (tokens : List Token) : Reader m α (tokens.length + 1) :=
  (pure (.done value [] tokens (Nat.lt_succ_self _)) : m _)

/-- Notices a fault at the first token. -/
def stopped (fault : SyntaxFault) (tokens : List Token) : Reader m α tokens.length :=
  (pure (.stuck [] fault tokens (Nat.le_refl _)) : m _)

/-- Reads the same, seen from one token further in front. -/
def behind (reader : Reader m α n) : Reader m α (n + 1) :=
  (Reading.behind <$> reader : m _)

/-- Reads the same and makes another phrase of it. -/
def map (f : α → β) (reader : Reader m α n) : Reader m β n :=
  (Reading.map f <$> reader : m _)

/-- Reads the same after other notices. -/
def noticing (earlier : List Notice) (reader : Reader m α n) : Reader m α n :=
  (Reading.noticing earlier <$> reader : m _)

/-- Goes on behind a phrase that was read with one that may take no tokens. -/
def andPerhaps (reader : Reader m α n)
    (next : α → (rest : List Token) → rest.length < n → Reader m β (rest.length + 1)) :
    Reader m β n :=
  ((reader : m _) >>= fun
    | .done value notices rest shorter =>
      (Reading.following notices shorter <$> next value rest shorter : m _)
    | .stuck notices fault rest bound => pure (.stuck notices fault rest bound) : m _)

/-- Goes on behind a phrase that was read with another one. -/
def andThen (reader : Reader m α n)
    (next : α → (rest : List Token) → rest.length < n → Reader m β rest.length) :
    Reader m β n :=
  reader.andPerhaps fun value rest shorter => (next value rest shorter).behind

/-- Acts first, and goes on with what came of that. -/
def acting (action : m α) (next : α → Reader m β n) : Reader m β n :=
  (action >>= next : m _)

end Reader

/-- Reads one token of a kind, and notices a fault if another token or the end
is there. -/
def expect {m : Type → Type} [Monad m] (wanted : Token → Bool) (fault : SyntaxFault) :
    (tokens : List Token) → Reader m Token tokens.length
  | [] => .stopped fault []
  | token :: rest => if wanted token then .still token rest else .stopped fault (token :: rest)

end Lox
