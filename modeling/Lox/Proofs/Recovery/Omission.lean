/-
# A statement without its semicolon

A program that is read without an error loses the semicolon behind one of its statements,
in front of a closing brace, of a word that starts a statement, or at the end.  The
reading of that statement is then stopped at the token that follows, and this is noticed
once.  What else happens depends on that token, because the skipping passes it in any
case: nothing more is noticed if what the skipping leaves goes on in the blocks that are
open at that point, and whatever is noticed there is noticed on top.

To say this without reference to open blocks, the reading is compared with that of a
program in which the semicolon is still there, and behind it an empty block stands in
place of the tokens that are skipped (`restarted`).  The two readings are the same up to
the semicolon, and the same again where the skipping has ended; the empty block keeps an
`else` that comes first there from being taken by the statement in front of it.

The proof is an induction on the derivation of the program.  A statement that ends with
the semicolon is stopped where it would have been read (`Omission.stopped`).  In any
other phrase the semicolon is in one of its parts, and from a block on outwards the two
readings only differ by the one notice (`Later`).
-/

import Lox.Proofs.Grammar.Prefix
import Lox.Proofs.Recovery.Semicolons

namespace Lox

namespace Outcome

variable {α β : Type}

/-- What came of a reading, apart from what was read. -/
def void (outcome : Outcome α) : Outcome Unit :=
  outcome.map fun _ => ()

@[simp]
theorem void_map (f : α → β) (outcome : Outcome α) : (outcome.map f).void = outcome.void := by
  cases outcome <;> rfl

@[simp]
theorem void_noticing (earlier : List Notice) (outcome : Outcome α) :
    (outcome.noticing earlier).void = outcome.void.noticing earlier := by
  cases outcome <;> rfl

theorem noticing_noticing (first second : List Notice) (outcome : Outcome α) :
    (outcome.noticing second).noticing first = outcome.noticing (first ++ second) := by
  cases outcome with
  | done => exact congrArg (done _ · _) (List.append_assoc ..).symm
  | stuck => exact congrArg (stuck · _ _) (List.append_assoc ..).symm

/-- What follows goes on alike behind two outcomes that are alike, if it does not depend
on what was read. -/
theorem void_bind {without whole : Outcome α} {earlier : List Notice}
    (same : without.void = whole.void.noticing earlier) (next : α → List Token → Outcome β)
    (alike : ∀ value other rest, (next value rest).void = (next other rest).void) :
    (without.bind next).void = (whole.bind next).void.noticing earlier := by
  cases without with
  | stuck =>
      cases whole with
      | stuck => exact same
      | done => cases same
  | done value notices rest =>
      cases whole with
      | stuck => cases same
      | done other more left =>
          cases same
          rw [bind, bind, void_noticing, void_noticing, noticing_noticing, alike value other]

end Outcome

/-- Tokens that are read as an empty block. -/
def emptyBlock : List Token :=
  [⟨.symbol .leftBrace, "\x7b", 1⟩, ⟨.symbol .rightBrace, "\x7d", 1⟩]

/-- An empty block in place of the tokens that are skipped after a fault at the first of
some tokens. -/
def restarted (behind : List Token) : List Token :=
  emptyBlock ++ resume behind

section

variable {α β : Type} {behind : List Token}

/-- Two readings end alike, but in the first one a fault was noticed before at the first of
some tokens. -/
def Later (behind : List Token) (without whole : Outcome α) : Prop :=
  ∃ fault, without.void = whole.void.noticing [⟨fault, behind.head?⟩]

/-- Some tokens are read without a semicolon in front of others, and with it in front of
those with which the reading is restarted.  Either the first reading is stopped behind
the gap where the second one is done, or the first one has restarted inside. -/
inductive Omission (behind : List Token) (without whole : Outcome α) : Prop where
  | stopped (fault : SyntaxFault) (value : α) (stuck : without = .stuck [] fault behind)
      (done : whole = .done value [] (restarted behind))
  | later (goesOn : Later behind without whole)

variable {without whole : Outcome α}

theorem Later.map (later : Later behind without whole) (f : α → β) :
    Later behind (without.map f) (whole.map f) := by
  obtain ⟨fault, same⟩ := later
  exact ⟨fault, by rw [Outcome.void_map, Outcome.void_map, same]⟩

theorem Later.bind (later : Later behind without whole) (next : α → List Token → Outcome β)
    (alike : ∀ value other rest, (next value rest).void = (next other rest).void) :
    Later behind (without.bind next) (whole.bind next) := by
  obtain ⟨fault, same⟩ := later
  exact ⟨fault, Outcome.void_bind same next alike⟩

theorem Omission.map (omission : Omission behind without whole) (f : α → β) :
    Omission behind (without.map f) (whole.map f) := by
  cases omission with
  | stopped fault value stuck done =>
      exact .stopped fault (f value) (congrArg (·.map f) stuck) (congrArg (·.map f) done)
  | later goesOn => exact .later (goesOn.map f)

/-- A phrase that takes nothing of a block may follow. -/
theorem Omission.bind (omission : Omission behind without whole)
    (next : α → List Token → Outcome β)
    (alike : ∀ value other rest, (next value rest).void = (next other rest).void)
    (ends : ∀ value, ∃ found,
      next value (restarted behind) = .done found [] (restarted behind)) :
    Omission behind (without.bind next) (whole.bind next) := by
  cases omission with
  | stopped fault value stuck done =>
      obtain ⟨found, takesNone⟩ := ends value
      exact .stopped fault found (congrArg (·.bind next) stuck)
        (by rw [done, Outcome.bind_done, takesNone])
  | later goesOn => exact .later (goesOn.bind next alike)

end

/-- The same of two declarations. -/
inductive DeclaredOmission (behind : List Token) {n m : Nat} (without : Declarer Id Unit n)
    (whole : Declarer Id Unit m) : Prop where
  | stopped (fault : SyntaxFault) (noticed : without.notices = [⟨fault, behind.head?⟩])
      (skipped : without.rest = resume behind) (quiet : whole.notices = [])
      (left : whole.rest = restarted behind)
  | later (fault : SyntaxFault)
      (noticed : without.notices = ⟨fault, behind.head?⟩ :: whole.notices)
      (left : without.rest = whole.rest)

theorem Omission.declared {behind : List Token} {n m : Nat}
    {without : Reader Id (Stmt Unit) (n + 1)} {whole : Reader Id (Stmt Unit) (m + 1)}
    (omission : Omission behind without.outcome whole.outcome) :
    DeclaredOmission behind (Declarer.ofReader without) (Declarer.ofReader whole) := by
  cases omission with
  | stopped fault value stuck done =>
      obtain ⟨-, noticed, skipped⟩ := Declarer.ofReader_stuck stuck
      obtain ⟨-, quiet, left⟩ := Declarer.ofReader_done done
      exact .stopped fault noticed skipped quiet left
  | later goesOn =>
      obtain ⟨fault, same⟩ := goesOn
      cases without with
      | done =>
          cases whole with
          | done =>
              injection same with _ noticed left
              exact .later fault noticed left
          | stuck => cases same
      | stuck =>
          cases whole with
          | done => cases same
          | stuck =>
              injection same with noticed faults left
              subst noticed faults left
              exact .later fault rfl rfl

namespace Grammar

/-! ## Declarations one after the other -/

/-- An empty block is read as one, whatever follows. -/
theorem declaration_emptyBlock (left right : Token) (isLeft : left.kind = .symbol .leftBrace)
    (isRight : right.kind = .symbol .rightBrace) (rest : List Token) :
    (declaration false left (right :: rest)).Clean (.block []) rest := by
  rw [declaration, Declarer.clean_ofReader]
  simp only [isLeft]
  rw [Lox.statement]
  simp only [isLeft, Reader.clean_behind]
  rw [Reader.clean_map, block, if_pos (Token.isSymbol_iff.2 isRight)]
  exact ⟨[], Reader.clean_still.2 ⟨rfl, rfl⟩, rfl⟩

/-- Declarations are read one after the other, and what is noticed in one of them comes
before what is noticed behind it. -/
def GoesOn (read : List Token → Outcome Unit) : Prop :=
  ∀ first rest, StartsDeclaration first →
    read (first :: rest) =
      (read (declaration false first rest).rest).noticing (declaration false first rest).notices

theorem goesOn_declarations : GoesOn fun tokens => .done () (declarations false tokens).2 [] := by
  intro first rest _
  simp only
  rw [declarations_cons]
  rfl

theorem outcome_block {first : Token} (noRight : ¬ first.isSymbol .rightBrace = true)
    (rest : List Token) :
    (block false (first :: rest)).outcome =
      ((block false (declaration false first rest).rest).outcome.map
        ((declaration false first rest).statement.toList ++ ·)).noticing
          (declaration false first rest).notices := by
  rw [block, if_neg noRight]
  exact Declarer.outcome_andThen (declaration false first rest) fun rest => block false rest

theorem goesOn_block : GoesOn fun tokens => (block false tokens).outcome.void := by
  intro first rest starts
  have noRight : ¬ first.isSymbol .rightBrace = true :=
    fun isRight => starts.kind.1 (Token.isSymbol_iff.1 isRight)
  simp only
  rw [outcome_block noRight, Outcome.void_noticing, Outcome.void_map]

section

variable {read : List Token → Outcome Unit} (goesOn : GoesOn read)

include goesOn

theorem GoesOn.clean {first : Token} {tokens rest : List Token} {stmt : Stmt Unit}
    (starts : StartsDeclaration first)
    (clean : (declaration false first tokens).Clean stmt rest) :
    read (first :: tokens) = read rest := by
  obtain ⟨-, quiet, left⟩ := clean
  rw [goesOn first tokens starts, quiet, left, Outcome.noticing_nil]

theorem GoesOn.read_restarted (behind : List Token) :
    read (restarted behind) = read (resume behind) :=
  goesOn.clean (.inl (.inr (.inr (.inr (.inr (.inr (.inr rfl)))))))
    (declaration_emptyBlock _ _ rfl rfl (resume behind))

/-- Behind a declaration without its semicolon everything is read as behind the whole one. -/
theorem GoesOn.omission {first : Token} {behind without whole : List Token}
    (starts : StartsDeclaration first)
    (omission : DeclaredOmission behind (declaration false first without)
      (declaration false first whole)) :
    ∃ fault, read (first :: without) =
      (read (first :: whole)).noticing [⟨fault, behind.head?⟩] := by
  rw [goesOn first without starts, goesOn first whole starts]
  cases omission with
  | stopped fault noticed skipped quiet left =>
      refine ⟨fault, ?_⟩
      rw [noticed, skipped, quiet, left, goesOn.read_restarted, Outcome.noticing_nil]
  | later fault noticed left =>
      refine ⟨fault, ?_⟩
      rw [noticed, left, Outcome.noticing_noticing]
      rfl

end

/-! ## The semicolon in a derivation -/

/-- Whichever semicolon of a row of tokens is left out, the functions of the form read the row
without it, in front of tokens that could follow a statement there, as an omission. -/
def Form.Omits (semicolon : Token) : Form → List Token → Prop
  | .statement, used => ∀ front more rest, used = front ++ semicolon :: more →
    FollowsStatement (more ++ rest) →
      Omission (more ++ rest) (Lox.statement false (front ++ (more ++ rest))).outcome
        (Lox.statement false (front ++ semicolon :: restarted (more ++ rest))).outcome
  | .declaration, used => ∀ front more rest, used = front ++ semicolon :: more →
    FollowsStatement (more ++ rest) → ∃ first before, front = first :: before ∧
      DeclaredOmission (more ++ rest) (Lox.declaration false first (before ++ (more ++ rest)))
        (Lox.declaration false first (before ++ semicolon :: restarted (more ++ rest)))
  | .function, used => ∀ kind front more rest, used = front ++ semicolon :: more →
    FollowsStatement (more ++ rest) →
      Later (more ++ rest) (Lox.function false kind (front ++ (more ++ rest))).outcome
        (Lox.function false kind (front ++ semicolon :: restarted (more ++ rest))).outcome

theorem noElse_restarted (behind : List Token) : NoElse (restarted behind) := by
  rintro token ⟨⟩
  decide

theorem StartsDeclaration.not_semicolon {token : Token} (starts : StartsDeclaration token) :
    token.kind ≠ .symbol .semicolon := by
  intro same
  rcases starts with (starts | starts) | starts
  · exact starts.not_symbol same (by decide)
  · simp [same] at starts
  · simp [same] at starts

section

variable {semicolon : Token} (isSemicolon : semicolon.kind = .symbol .semicolon)

include isSemicolon

/-- The rows of a body start with the tokens of declarations. -/
theorem Body.Declarations.starts {body : Body} (derived : body.Declarations)
    {front more : List Token} (same : body.tokens = front ++ semicolon :: more) :
    ∃ first before, front = first :: before ∧ StartsDeclaration first := by
  cases body with
  | nil =>
      have lengths := congrArg List.length same
      simp [Body.tokens] at lengths
  | cons row body =>
      obtain ⟨first, others, found, starts⟩ := (derived row List.mem_cons_self).starts
      have tokens : Body.tokens (row :: body) = first :: (others ++ Body.tokens body) := by
        simp [Body.tokens, found]
      rw [tokens] at same
      obtain ⟨before, rfl, -⟩ := skip_token isSemicolon starts.not_semicolon same
      exact ⟨first, before, rfl, starts⟩

/-- A semicolon is left out of a row of declarations. -/
theorem GoesOn.body {read : List Token → Outcome Unit} (goesOn : GoesOn read) {body : Body}
    (derived : body.Declarations) (omits : ∀ row ∈ body, Form.Omits semicolon .declaration row.1)
    {front more rest : List Token} (same : body.tokens = front ++ semicolon :: more)
    (follows : FollowsStatement (more ++ rest)) :
    ∃ fault, read (front ++ (more ++ rest)) =
      (read (front ++ semicolon :: restarted (more ++ rest))).noticing
        [⟨fault, (more ++ rest).head?⟩] := by
  induction body generalizing front with
  | nil =>
      have lengths := congrArg List.length same
      simp [Body.tokens] at lengths
  | cons row body ih =>
      have rowReads : Form.Reads false .declaration row.1 row.2.1 row.2.2 :=
        (derived row List.mem_cons_self).reads
      obtain ⟨first, taken, found, reads⟩ := rowReads
      obtain ⟨_, _, found', starts⟩ := (derived row List.mem_cons_self).starts
      rw [found] at found'
      cases found'
      have tokens : row.1 ++ Body.tokens body = front ++ semicolon :: more := same
      rcases append_eq_around tokens with ⟨left, inRow, rfl⟩ | ⟨left, rfl, inBody⟩
      · rw [List.append_assoc] at follows ⊢
        obtain ⟨_, before, rfl, omission⟩ := omits row List.mem_cons_self _ _ _ inRow follows
        rw [found] at inRow
        cases inRow
        exact goesOn.omission starts omission
      · obtain ⟨second, before, rfl, starts'⟩ := derived.tail.starts isSemicolon inBody
        have skips (behind : List Token) :
            read (row.1 ++ second :: before ++ behind) = read (second :: before ++ behind) := by
          rw [found, List.append_assoc, List.cons_append]
          refine goesOn.clean starts (reads _ fun _ => ?_)
          rintro _ ⟨⟩
          exact starts'.kind.2
        rw [skips, skips]
        exact ih derived.tail (fun other member => omits other (List.mem_cons_of_mem _ member))
          inBody

/-- A semicolon is left out of a block. -/
theorem block_later {body : Body} (derived : body.Declarations)
    (omits : ∀ row ∈ body, Form.Omits semicolon .declaration row.1) {closing : Token}
    (isClosing : closing.kind = .symbol .rightBrace) {front more rest : List Token}
    (same : body.tokens ++ [closing] = front ++ semicolon :: more)
    (follows : FollowsStatement (more ++ rest)) :
    Later (more ++ rest) (Lox.block false (front ++ (more ++ rest))).outcome
      (Lox.block false (front ++ semicolon :: restarted (more ++ rest))).outcome := by
  obtain ⟨left, inBody, rfl⟩ := in_front_of_last isSemicolon (by simp [isClosing]) same
  rw [List.append_assoc] at follows ⊢
  exact goesOn_block.body isSemicolon derived omits inBody follows

end

end Grammar

end Lox
