/-
# The source form scans to the tokens of the expression

The source form writes no parentheses of its own and puts blanks only around
infix operators, around `=` and behind commas.  That is enough: no two of its
words run into each other.  Every expression is followed by something that
goes on with none of the tokens it can end with, and a prefix operator by a
text that does not start with `=`.

Numbers are written anew, with the digits that read back to the same float;
all other tokens are written as they were spelled.
-/

import Lox.Syntax.SourceForm
import Lox.Proofs.Grammar
import Lox.Proofs.Number.Float
import Lox.Proofs.Spelling

namespace Lox

theorem Scans.wellSpelled {token : Token} (spelled : token.WellSpelled) {rest : List Char}
    (ends : token.kind.EndsBefore rest) : Scans token.lexeme.toList [token] rest :=
  .spelled spelled ends rfl (.inl String.ofList_toList.symm)

/-- The text of a float that was made from a finite pattern. -/
theorem NumberStyle.write_toFloat (style : NumberStyle) {magnitude : Nat}
    (finite : magnitude < Binary64.infinityPattern) :
    style.write (Binary64.toFloat false magnitude) = String.ofList (style.magnitude magnitude) := by
  have ordered : ¬ magnitude > Binary64.infinityPattern := Nat.not_lt.2 finite.le
  simp only [NumberStyle.write, Binary64.pattern_toFloat finite,
    Binary64.not_isNegative_toFloat finite, if_neg ordered, if_neg finite.ne]
  rfl

/-- A finite number that was written in a text is spelled by its text in any style. -/
theorem NumberStyle.spelled_write (style : NumberStyle) {token : Token} {value : Float}
    (spelled : token.WellSpelled) (same : token.kind = .number value)
    (finite : value.isFinite = true) : Spelled (.number value) (style.write value).toList := by
  obtain ⟨whole, fraction, rfl⟩ : ∃ whole fraction, value = Cut.numberValue whole fraction := by
    rw [Token.WellSpelled, same] at spelled
    cases spelled
    exact ⟨_, _, rfl⟩
  have low := Binary64.nearest_le_infinityPattern (Decimal.ofDigits whole fraction).numerator
    (Decimal.ofDigits whole fraction).denominator
  have below : (Decimal.ofDigits whole fraction).nearest < Binary64.infinityPattern :=
    Binary64.lt_infinityPattern_of_isFinite low finite
  obtain ⟨whole', fraction', spells, reads⟩ := style.spells_magnitude below
  have value : Cut.numberValue whole' fraction' = Cut.numberValue whole fraction :=
    congrArg (Binary64.toFloat false) reads
  have text : (style.write (Cut.numberValue whole fraction)).toList =
      style.magnitude (Decimal.ofDigits whole fraction).nearest := by
    rw [Cut.numberValue, style.write_toFloat below, String.toList_ofList]
  rw [text, ← value]
  exact .number spells

/-- No token that an expression ends with goes on with this text. -/
structure Stops (rest : List Char) : Prop where
  noWord : ∀ character ∈ rest.head?, isWordPart character = false
  noFraction : Cut.fraction? rest = none

theorem stops_cons {character : Char} (noWord : isWordPart character = false)
    (noPoint : character ≠ '.') (rest : List Char) : Stops (character :: rest) := by
  refine ⟨fun other first => by cases first; exact noWord, ?_⟩
  unfold Cut.fraction?
  split
  · next same => exact absurd (List.cons.inj same).1 noPoint
  · rfl

/-- A point in front of a name is no fraction. -/
theorem stops_point {first : Char} (starts : isWordStart first = true) (rest : List Char) :
    Stops ('.' :: first :: rest) := by
  have noDigit : first.isDigit = false := by
    by_contra digit
    rw [not_isWordStart (by simpa using digit)] at starts
    cases starts
  have noWord : isWordPart '.' = false := by decide
  refine ⟨fun other point => by cases point; exact noWord, ?_⟩
  rw [Cut.fraction?, noDigit, if_neg Bool.false_ne_true]

theorem Stops.noDigit {rest : List Char} (stops : Stops rest) :
    ∀ character ∈ rest.head?, character.isDigit = false := by
  intro character first
  have part := stops.noWord character first
  rw [isWordPart, Bool.or_eq_false_iff] at part
  exact part.2

/-- A text that can stand for an expression with these tokens. -/
structure Prints (text : List Char) (tokens : List Token) : Prop where
  starts : ∃ first more, text = first :: more ∧ first ≠ '='
  scans : ∀ rest, Stops rest → Scans text tokens rest

/-- A text in front keeps the start. -/
theorem starts_append {text more : List Char}
    (starts : ∃ first rest, text = first :: rest ∧ first ≠ '=') :
    ∃ first rest, text ++ more = first :: rest ∧ first ≠ '=' := by
  obtain ⟨first, rest, rfl, other⟩ := starts
  exact ⟨first, rest ++ more, rfl, other⟩

/-- What spells a word, a number or a string does not start with `=`. -/
theorem Spelled.starts {kind : TokenKind} {text : List Char} (spelled : Spelled kind text)
    (noSymbol : ∀ symbol, kind ≠ .symbol symbol) :
    ∃ first rest, text = first :: rest ∧ first ≠ '=' := by
  cases spelled with
  | symbol symbol => exact absurd rfl (noSymbol symbol)
  | keyword keyword => cases keyword <;> exact ⟨_, _, rfl, by decide⟩
  | identifier starts =>
      refine ⟨_, _, rfl, ?_⟩
      rintro rfl
      exact absurd starts (by decide)
  | string => exact ⟨_, _, rfl, by decide⟩
  | number spells =>
      cases spells with
      | whole areDigits =>
          obtain ⟨some, all⟩ := areDigits
          obtain ⟨first, rest, rfl⟩ := List.exists_cons_of_ne_nil some
          refine ⟨first, rest, rfl, ?_⟩
          rintro rfl
          exact absurd (all '=' List.mem_cons_self) (by decide)
      | fraction areDigits _ =>
          obtain ⟨some, all⟩ := areDigits
          obtain ⟨first, rest, rfl⟩ := List.exists_cons_of_ne_nil some
          refine ⟨first, _, rfl, ?_⟩
          rintro rfl
          exact absurd (all '=' List.mem_cons_self) (by decide)

/-- A token that is no symbol ends where an expression does. -/
theorem Stops.endsBefore {rest : List Char} (stops : Stops rest) {kind : TokenKind}
    (noSymbol : ∀ symbol, kind ≠ .symbol symbol) : kind.EndsBefore rest := by
  cases kind with
  | symbol symbol => exact absurd rfl (noSymbol symbol)
  | keyword => exact stops.noWord
  | identifier => exact stops.noWord
  | number => exact ⟨stops.noDigit, stops.noFraction⟩
  | _ => trivial

namespace Prints

/-- A token that is an expression prints as it is spelled. -/
theorem token {token : Token} (spelled : token.WellSpelled)
    (noSymbol : ∀ symbol, token.kind ≠ .symbol symbol) : Prints token.lexeme.toList [token] :=
  ⟨spelled.starts noSymbol, fun _ stops => .wellSpelled spelled (stops.endsBefore noSymbol)⟩

/-- A finite number prints as digits that read back to it. -/
theorem number {token : Token} {value : Float} (spelled : token.WellSpelled)
    (same : token.kind = .number value) (finite : value.isFinite = true) :
    Prints (NumberStyle.source.write value).toList [token] := by
  have number := NumberStyle.source.spelled_write spelled same finite
  exact ⟨number.starts (by simp), fun rest stops =>
    .spelled number (stops.endsBefore (by simp)) same (.inr ⟨_, rfl⟩)⟩

variable {text more : List Char} {tokens others : List Token}

/-- An infix operator stands between blanks. -/
theorem between (first : Prints text tokens) {operator : Token} (spelled : operator.WellSpelled)
    (second : Prints more others) :
    Prints (text ++ ' ' :: (operator.lexeme.toList ++ ' ' :: more))
      (tokens ++ operator :: others) := by
  refine ⟨starts_append first.starts, fun rest stops => ?_⟩
  have last := second.scans rest stops
  have blank := (Scans.blank (more ++ rest)).append last
  have sign := (Scans.wellSpelled spelled (endsBefore_blank _ (more ++ rest))).append blank
  have space : Stops (' ' :: (operator.lexeme.toList ++ ' ' :: more) ++ rest) :=
    stops_cons (by decide) (by decide) _
  exact (first.scans _ space).append ((Scans.blank _).append sign)

/-- A prefix operator stands right in front of its operand. -/
theorem prefixed {operator : Token} (spelled : operator.WellSpelled)
    (isOperator : operator.kind = .symbol .bang ∨ operator.kind = .symbol .minus)
    (operand : Prints text tokens) :
    Prints (operator.lexeme.toList ++ text) (operator :: tokens) := by
  obtain ⟨first, behind, same, other⟩ := operand.starts
  constructor
  · rcases isOperator with isBang | isMinus
    · rw [spelled.lexeme_eq_of_symbol isBang]
      exact ⟨'!', text, rfl, by decide⟩
    · rw [spelled.lexeme_eq_of_symbol isMinus]
      exact ⟨'-', text, rfl, by decide⟩
  · intro rest stops
    have ends : operator.kind.EndsBefore (text ++ rest) := by
      rw [same]
      rcases isOperator with isBang | isMinus
      · rw [isBang]
        intro character head
        cases head
        exact other
      · rw [isMinus]
        exact fun _ _ => id
    exact (Scans.wellSpelled spelled ends).append (operand.scans rest stops)

theorem scans_symbol {token : Token} (spelled : token.WellSpelled) {symbol : Symbol}
    (same : token.kind = .symbol symbol) {rest : List Char}
    (ends : ∀ character ∈ rest.head?, ¬ symbol.GoesOn character) :
    Scans symbol.spelling.toList [token] rest := by
  rw [← spelled.lexeme_eq_of_symbol same]
  apply Scans.wellSpelled spelled
  rw [same]
  exact ends

/-- A property stands right behind its point. -/
theorem property (owner : Prints text tokens) {dot name : Token} (spelledDot : dot.WellSpelled)
    (isDot : dot.kind = .symbol .dot) (spelled : name.WellSpelled)
    (isName : name.kind = .identifier) :
    Prints (text ++ '.' :: name.lexeme.toList) (tokens ++ [dot, name]) := by
  refine ⟨starts_append owner.starts, fun rest stops => ?_⟩
  obtain ⟨first, behind, same, starts⟩ := spelled.starts_of_identifier isName
  have last := (token spelled (by simp [isName])).scans rest stops
  have point := (scans_symbol spelledDot isDot fun _ _ => id).append last
  have front := owner.scans ('.' :: (name.lexeme.toList ++ rest)) (by
    rw [same, List.cons_append]
    exact stops_point starts _)
  exact front.append point

/-- Something in parentheses, with something in front that may be nothing. -/
theorem enclosed {inside : List Token} {opening closing : Token}
    (spelledOpening : opening.WellSpelled) (isOpening : opening.kind = .symbol .leftParen)
    (inner : ∀ rest, Stops rest → Scans more inside rest) (spelledClosing : closing.WellSpelled)
    (isClosing : closing.kind = .symbol .rightParen) (rest : List Char) :
    Scans ('(' :: (more ++ [')'])) (opening :: (inside ++ [closing])) rest := by
  have last : Scans [')'] [closing] rest := scans_symbol spelledClosing isClosing fun _ _ => id
  have front := inner (')' :: rest) (stops_cons (by decide) (by decide) _)
  exact (scans_symbol spelledOpening isOpening fun _ _ => id).append (front.append last)

end Prints

open Grammar

/-- Expressions with commas and blanks between them. -/
theorem scans_separated {rows : List (List Token × Expr Unit)} {inside : List Token}
    (each : ∀ row ∈ rows, Prints row.2.sourceForm.toList row.1)
    (separated : Separated (rows.map Prod.fst) inside)
    (spelled : ∀ token ∈ inside, token.WellSpelled) {rest : List Char} (stops : Stops rest) :
    Scans (Text.separated ", " (Expr.allSourceForms (rows.map Prod.snd))).toList inside rest := by
  induction rows generalizing inside with
  | nil =>
      cases separated
      exact Scans.nil rest
  | cons row rows ih =>
      cases rows with
      | nil =>
          cases separated
          exact (each row List.mem_cons_self).scans rest stops
      | cons second others =>
          obtain - | - | @⟨_, _, behind, _, comma, isComma, more⟩ := separated
          have later := ih (fun other member => each other (List.mem_cons_of_mem _ member)) more
            fun token member => spelled token (by simp [member])
          have blank := (Scans.blank _).append later
          have sign := (Prints.scans_symbol (spelled comma (by simp)) isComma
            fun _ _ => id).append blank
          have stop : Stops (',' :: ' ' :: (Text.separated ", " (Expr.allSourceForms
              ((second :: others).map Prod.snd))).toList ++ rest) :=
            stops_cons (by decide) (by decide) _
          have front := ((each row List.mem_cons_self).scans _ stop).append sign
          simpa [Text.separated, Expr.allSourceForms] using front

end Lox
