/-
# Trees that are restored from their prefix notation

A tree is *restored* if all words of its word tree are words wherever they stand and what
is read back of it is the tree itself, but for the lines of its tokens.  This module goes
through the forms of trees one by one: a tree is restored if its tokens are spelled as
they should be and the trees in it are restored.
-/

import Lox.Proofs.PrefixForm.Trees
import Lox.Proofs.Fitting
import Lox.Proofs.Lines
import Lox.Proofs.Rescanning

namespace Lox

/-! ## Words -/

/-- All tokens on one line. -/
def noLine : Nat → Nat :=
  fun _ => 0

/-- A text that spells a token is cut into it. -/
theorem Token.ofLexeme_of_spelled {kind : TokenKind} {lexeme : String}
    (spelled : Spelled kind lexeme.toList) : Token.ofLexeme lexeme = ⟨kind, lexeme, 0⟩ := by
  have wellSpelled : Token.WellSpelled ⟨kind, lexeme, 0⟩ := spelled
  have pieces := wellSpelled.segments_append kind.endsBefore_nil
  have nothing : segments [] = [] := by rw [segments]
  rw [List.append_nil, nothing] at pieces
  rw [Token.ofLexeme, pieces]
  rfl

/-- A lexeme is read as its token. -/
theorem Token.WellSpelled.ofLexeme {token : Token} (spelled : token.WellSpelled) :
    Token.ofLexeme token.lexeme = token.relined noLine :=
  Token.ofLexeme_of_spelled spelled

theorem isWordCharacter_of_isWordPart {character : Char} (part : isWordPart character = true) :
    isWordCharacter character = true := by
  have other {stop : Char} (noPart : isWordPart stop = false) : character ≠ stop := by
    rintro rfl
    rw [noPart] at part
    cases part
  have noBlank : character ≠ ' ' := other (by decide)
  have noOpening : character ≠ '(' := other (by decide)
  have noClosing : character ≠ ')' := other (by decide)
  simp [isWordCharacter, noBlank, noOpening, noClosing]

theorem isWordPart_of_isDigit {character : Char} (digit : character.isDigit = true) :
    isWordPart character = true := by
  rw [isWordPart, digit, Bool.or_true]

theorem isWord_of_digits {digits : List Char} (areDigits : Decimal.IsDigits digits) :
    IsWord digits :=
  ⟨areDigits.1, fun character member =>
    isWordCharacter_of_isWordPart (isWordPart_of_isDigit (areDigits.2 character member))⟩

/-- What spells a token is a word, unless it is a string or a parenthesis. -/
theorem Spelled.isWord {kind : TokenKind} {text : List Char} (spelled : Spelled kind text)
    (noString : ∀ inside, kind ≠ .string inside) (noOpening : kind ≠ .symbol .leftParen)
    (noClosing : kind ≠ .symbol .rightParen) : IsWord text := by
  cases spelled with
  | symbol symbol =>
      cases symbol with
      | leftParen => exact absurd rfl noOpening
      | rightParen => exact absurd rfl noClosing
      | _ => exact isWord_iff.2 rfl
  | keyword keyword => cases keyword <;> exact isWord_iff.2 rfl
  | @identifier first rest starts parts _ =>
      have all : ∀ character ∈ first :: rest, isWordPart character = true :=
        List.forall_mem_cons.2 ⟨by rw [isWordPart, starts, Bool.true_or], parts⟩
      exact ⟨List.cons_ne_nil _ _, fun character member =>
        isWordCharacter_of_isWordPart (all character member)⟩
  | string => exact absurd rfl (noString _)
  | number spells =>
      cases spells with
      | whole areDigits => exact isWord_of_digits areDigits
      | fraction areDigits areMore =>
          have point : isWordCharacter '.' = true := by decide
          exact ⟨List.append_ne_nil_of_left_ne_nil areDigits.1 _, List.forall_mem_append.2
            ⟨(isWord_of_digits areDigits).2,
              List.forall_mem_cons.2 ⟨point, (isWord_of_digits areMore).2⟩⟩⟩

theorem Token.WellSpelled.isWord_of_identifier {name : Token} (spelled : name.WellSpelled)
    (isName : name.kind = .identifier) : IsWord name.lexeme.toList := by
  apply Spelled.isWord spelled <;> simp [isName]

theorem Token.WellSpelled.isWord_of_symbol {operator : Token} {symbol : Symbol}
    (spelled : operator.WellSpelled) (same : operator.kind = .symbol symbol)
    (noOpening : symbol ≠ .leftParen) (noClosing : symbol ≠ .rightParen) :
    IsWord operator.lexeme.toList := by
  apply Spelled.isWord spelled <;> simp [same, noOpening, noClosing]

theorem Token.WellSpelled.isWord_of_keyword {operator : Token} {keyword : Keyword}
    (spelled : operator.WellSpelled) (same : operator.kind = .keyword keyword) :
    IsWord operator.lexeme.toList := by
  apply Spelled.isWord spelled <;> simp [same]

/-! ## Restored expressions -/

/-- The words of an expression are words, and what is read back of it is the expression
itself, but for the lines of its tokens. -/
structure Expr.Restored (expr : Expr Unit) : Prop where
  clean : expr.wordTree.Clean
  back : expr.wordTree.expr = expr.relined noLine

namespace Expr

variable {expr left right : Expr Unit} {name operator : Token}

/-- An expression that is one word is restored if the word is one of its token. -/
theorem restored_word {text : String} {kind : TokenKind}
    (written : expr.wordTree = .word text) (spelled : Spelled kind text.toList)
    (isWord : IsWord text.toList) (atom : atom? ⟨kind, text, 0⟩ = some (expr.relined noLine)) :
    expr.Restored := by
  constructor
  · rw [written]
    exact isWord
  · rw [written, WordTree.expr, Token.ofLexeme_of_spelled spelled, atom, Option.getD_some]

theorem restored_keyword (keyword : Keyword)
    (written : expr.wordTree = .word keyword.spelling)
    (atom : atom? ⟨.keyword keyword, keyword.spelling, 0⟩ = some (expr.relined noLine)) :
    expr.Restored := by
  have spelled : Spelled (.keyword keyword) keyword.spelling.toList := .keyword keyword
  apply restored_word written spelled _ atom
  apply spelled.isWord <;> simp

theorem restored_true : Restored (.literal (.boolean true)) :=
  restored_keyword .trueWord rfl rfl

theorem restored_false : Restored (.literal (.boolean false)) :=
  restored_keyword .falseWord rfl rfl

theorem restored_nil : Restored (.literal .nil) :=
  restored_keyword .nilWord rfl rfl

theorem restored_number {value : Float}
    (spelled : Spelled (.number value) (NumberStyle.prefixForm.write value).toList) :
    Restored (.literal (.number value)) := by
  apply restored_word rfl spelled _ rfl
  apply spelled.isWord <;> simp

theorem restored_variable (spelled : name.WellSpelled) (isName : name.kind = .identifier) :
    Restored (.variable () name) := by
  apply restored_word rfl spelled (spelled.isWord_of_identifier isName)
  rw [isName]
  simp [atom?, relined, Token.relined, noLine, isName]
  rfl

theorem restored_this (spelled : name.WellSpelled) (isThis : name.kind = .keyword .thisWord) :
    Restored (.this () name) := by
  have lexeme := spelled.lexeme_eq_of_keyword isThis
  apply restored_keyword .thisWord rfl
  simp [atom?, relined, Token.relined, noLine, isThis, lexeme]
  rfl

/-- The word trees of restored expressions are clean. -/
theorem allClean_allWordTrees {exprs : List (Expr Unit)}
    (restored : ∀ expr ∈ exprs, expr.Restored) :
    WordTree.AllClean (allWordTrees exprs) := by
  rw [allWordTrees_eq_map, WordTree.allClean_iff, List.forall_mem_map]
  intro expr member
  exact (restored expr member).clean

/-- Restored expressions are read back one by one. -/
theorem exprs_allWordTrees {exprs : List (Expr Unit)} (restored : ∀ expr ∈ exprs, expr.Restored) :
    WordTree.exprs (allWordTrees exprs) = allRelined noLine exprs := by
  rw [WordTree.exprs_eq_map, allWordTrees_eq_map, allRelined_eq_map, List.map_map]
  apply List.map_congr_left
  intro expr member
  exact (restored expr member).back

/-- An expression that is a row is restored if the expressions in it are: what the row is
read as is left to show. -/
theorem restored_row {head : String} {parts : List WordTree} {expr : Expr Unit}
    (written : expr.wordTree = .row (.word head :: parts)) (isWord : IsWord head.toList)
    (clean : WordTree.AllClean parts)
    (back : ofRow head parts (WordTree.exprs parts) = expr.relined noLine) : expr.Restored := by
  constructor
  · rw [written]
    exact ⟨isWord, clean⟩
  · rw [written, WordTree.expr, back]

/-- A prefix operator is one of two words. -/
theorem ofRow_unary {operator : Token} (spelled : operator.WellSpelled)
    (isOperator : operator.kind = .symbol .bang ∨ operator.kind = .symbol .minus)
    (parts : List WordTree) (operand : Expr Unit) :
    ofRow operator.lexeme parts [operand] = .unary (operator.relined noLine) operand := by
  -- With the spelling in place of the lexeme, reading the row is a computation.
  rw [← spelled.ofLexeme]
  rcases isOperator with isBang | isMinus
  · rw [spelled.lexeme_eq_of_symbol isBang]
    rfl
  · rw [spelled.lexeme_eq_of_symbol isMinus]
    rfl

/-- An infix operator is one of ten words. -/
theorem ofRow_binary {operator : Token} (spelled : operator.WellSpelled)
    (isOperator : ∃ symbol ∈ infixSymbols, operator.kind = .symbol symbol)
    (parts : List WordTree) (left right : Expr Unit) :
    ofRow operator.lexeme parts [left, right] =
      .binary left (operator.relined noLine) right := by
  obtain ⟨symbol, listed, same⟩ := isOperator
  rw [← spelled.ofLexeme, spelled.lexeme_eq_of_symbol same]
  simp only [infixSymbols, List.mem_cons, List.not_mem_nil, or_false] at listed
  rcases listed with rfl | rfl | rfl | rfl | rfl | rfl | rfl | rfl | rfl | rfl <;> rfl

theorem ofRow_logical {operator : Token} (spelled : operator.WellSpelled)
    (isOperator : operator.kind = .keyword .andWord ∨ operator.kind = .keyword .orWord)
    (parts : List WordTree) (left right : Expr Unit) :
    ofRow operator.lexeme parts [left, right] =
      .logical left (operator.relined noLine) right := by
  rw [← spelled.ofLexeme]
  rcases isOperator with isAnd | isOr
  · rw [spelled.lexeme_eq_of_keyword isAnd]
    rfl
  · rw [spelled.lexeme_eq_of_keyword isOr]
    rfl

namespace Restored

theorem grouping (inner : expr.Restored) : Restored (.grouping expr) := by
  refine restored_row rfl (isWord_iff.2 rfl) ⟨inner.clean, trivial⟩ ?_
  rw [WordTree.exprs, WordTree.exprs, inner.back]
  rfl

theorem unary (spelled : operator.WellSpelled)
    (isOperator : operator.kind = .symbol .bang ∨ operator.kind = .symbol .minus)
    (operand : expr.Restored) : Restored (.unary operator expr) := by
  refine restored_row rfl ?_ ⟨operand.clean, trivial⟩ ?_
  · rcases isOperator with isBang | isMinus
    · exact spelled.isWord_of_symbol isBang (by decide) (by decide)
    · exact spelled.isWord_of_symbol isMinus (by decide) (by decide)
  · rw [WordTree.exprs, WordTree.exprs, operand.back, ofRow_unary spelled isOperator]
    rfl

theorem binary (before : left.Restored) (spelled : operator.WellSpelled)
    (isOperator : ∃ symbol ∈ infixSymbols, operator.kind = .symbol symbol)
    (behind : right.Restored) : Restored (.binary left operator right) := by
  refine restored_row rfl ?_ ⟨before.clean, behind.clean, trivial⟩ ?_
  · obtain ⟨symbol, listed, same⟩ := isOperator
    apply spelled.isWord_of_symbol same
    · rintro rfl
      exact absurd listed (by decide)
    · rintro rfl
      exact absurd listed (by decide)
  · rw [WordTree.exprs, WordTree.exprs, WordTree.exprs, before.back, behind.back,
      ofRow_binary spelled isOperator]
    rfl

theorem logical (before : left.Restored) (spelled : operator.WellSpelled)
    (isOperator : operator.kind = .keyword .andWord ∨ operator.kind = .keyword .orWord)
    (behind : right.Restored) : Restored (.logical left operator right) := by
  refine restored_row rfl ?_ ⟨before.clean, behind.clean, trivial⟩ ?_
  · rcases isOperator with isAnd | isOr
    · exact spelled.isWord_of_keyword isAnd
    · exact spelled.isWord_of_keyword isOr
  · rw [WordTree.exprs, WordTree.exprs, WordTree.exprs, before.back, behind.back,
      ofRow_logical spelled isOperator]
    rfl

theorem assign (spelled : name.WellSpelled) (isName : name.kind = .identifier)
    (value : expr.Restored) : Restored (.assign () name expr) := by
  refine restored_row rfl (isWord_iff.2 rfl)
    ⟨spelled.isWord_of_identifier isName, value.clean, trivial⟩ ?_
  rw [WordTree.exprs, WordTree.exprs, WordTree.exprs, value.back]
  show Expr.assign () (Token.ofLexeme name.lexeme) _ = _
  rw [spelled.ofLexeme]
  rfl

theorem call {arguments : List (Expr Unit)} {paren : Token} (callee : expr.Restored)
    (spelled : paren.WellSpelled) (isClosing : paren.kind = .symbol .rightParen)
    (restored : ∀ argument ∈ arguments, argument.Restored) :
    Restored (.call expr paren arguments) := by
  refine restored_row rfl (isWord_iff.2 rfl) ⟨callee.clean, allClean_allWordTrees restored⟩ ?_
  rw [WordTree.exprs, callee.back, exprs_allWordTrees restored]
  show Expr.call _ (Token.ofLexeme ")") _ = _
  have lexeme : paren.lexeme = ")" := spelled.lexeme_eq_of_symbol isClosing
  rw [← lexeme, spelled.ofLexeme]
  rfl

theorem get (object : expr.Restored) (spelled : name.WellSpelled)
    (isName : name.kind = .identifier) : Restored (.get expr name) := by
  refine restored_row rfl (isWord_iff.2 rfl)
    ⟨object.clean, spelled.isWord_of_identifier isName, trivial⟩ ?_
  rw [WordTree.exprs, WordTree.exprs, WordTree.exprs, object.back]
  show Expr.get _ (Token.ofLexeme name.lexeme) = _
  rw [spelled.ofLexeme]
  rfl

theorem set (object : left.Restored) (spelled : name.WellSpelled)
    (isName : name.kind = .identifier) (value : right.Restored) :
    Restored (.set left name right) := by
  refine restored_row rfl (isWord_iff.2 rfl)
    ⟨object.clean, spelled.isWord_of_identifier isName, value.clean, trivial⟩ ?_
  rw [WordTree.exprs, WordTree.exprs, WordTree.exprs, WordTree.exprs, object.back, value.back]
  show Expr.set _ (Token.ofLexeme name.lexeme) _ = _
  rw [spelled.ofLexeme]
  rfl

end Restored

end Expr

/-! ## Restored statements -/

/-- The words of a statement are words, and what is read back of it is the statement
itself, but for the lines of its tokens. -/
structure Stmt.Restored (stmt : Stmt Unit) : Prop where
  clean : stmt.wordTree.Clean
  back : stmt.wordTree.stmt = stmt.relined noLine

namespace Stmt

variable {expr : Expr Unit} {stmt : Stmt Unit} {stmts : List (Stmt Unit)}
  {methods : List (FunctionDecl Unit)} {name keyword : Token}

/-- A statement is restored if the trees in it are: what its row is read as is left to
show. -/
theorem restored_row {head : String} {parts : List WordTree}
    (written : stmt.wordTree = .row (.word head :: parts)) (isWord : IsWord head.toList)
    (clean : WordTree.AllClean parts)
    (back : ofRow head parts (WordTree.stmts parts) = stmt.relined noLine) : stmt.Restored := by
  constructor
  · rw [written]
    exact ⟨isWord, clean⟩
  · rw [written, WordTree.stmt, back]

/-- The word trees of restored statements are clean. -/
theorem allClean_allWordTrees (restored : ∀ stmt ∈ stmts, stmt.Restored) :
    WordTree.AllClean (allWordTrees stmts) := by
  rw [allWordTrees_eq_map, WordTree.allClean_iff, List.forall_mem_map]
  intro stmt member
  exact (restored stmt member).clean

/-- Restored statements are read back one by one. -/
theorem stmts_allWordTrees (restored : ∀ stmt ∈ stmts, stmt.Restored) :
    WordTree.stmts (allWordTrees stmts) = allRelined noLine stmts := by
  rw [WordTree.stmts_eq_map, allWordTrees_eq_map, allRelined_eq_map, List.map_map]
  apply List.map_congr_left
  intro stmt member
  exact (restored stmt member).back

theorem allClean_methodWordTrees (restored : ∀ method ∈ methods, Restored (.funDecl method)) :
    WordTree.AllClean (methodWordTrees methods) := by
  rw [methodWordTrees_eq_map, WordTree.allClean_iff, List.forall_mem_map]
  intro method member
  exact (restored method member).clean

/-- Restored methods are read back as declarations of functions. -/
theorem stmts_methodWordTrees (restored : ∀ method ∈ methods, Restored (.funDecl method)) :
    (WordTree.stmts (methodWordTrees methods)).filterMap declaration? =
      methodsRelined noLine methods := by
  have back : WordTree.stmts (methodWordTrees methods) =
      methods.map fun method => .funDecl (functionRelined noLine method) := by
    rw [WordTree.stmts_eq_map, methodWordTrees_eq_map, List.map_map]
    apply List.map_congr_left
    intro method member
    exact (restored method member).back
  rw [back, List.filterMap_map, methodsRelined_eq_map]
  exact congrFun List.filterMap_eq_map methods

/-- The words of names are words. -/
theorem allClean_names {names : List Token} (spelled : ∀ name ∈ names, name.WellSpelled)
    (areNames : ∀ name ∈ names, name.kind = .identifier) :
    WordTree.AllClean (names.map fun name => .word name.lexeme) := by
  rw [WordTree.allClean_iff, List.forall_mem_map]
  intro name member
  exact (spelled name member).isWord_of_identifier (areNames name member)

/-- Names are read back as their tokens. -/
theorem tokens_names {names : List Token} (spelled : ∀ name ∈ names, name.WellSpelled) :
    (names.map fun name => WordTree.word name.lexeme).map WordTree.token =
      names.map (Token.relined noLine) := by
  rw [List.map_map]
  apply List.map_congr_left
  intro name member
  exact (spelled name member).ofLexeme

namespace Restored

theorem expression (whole : expr.Restored) : Restored (.expression expr) := by
  refine restored_row rfl (isWord_iff.2 rfl) ⟨whole.clean, trivial⟩ ?_
  show Stmt.expression expr.wordTree.expr = _
  rw [whole.back, relined]

theorem print (whole : expr.Restored) : Restored (.print expr) := by
  refine restored_row rfl (isWord_iff.2 rfl) ⟨whole.clean, trivial⟩ ?_
  show Stmt.print expr.wordTree.expr = _
  rw [whole.back, relined]

theorem varDecl (spelled : name.WellSpelled) (isName : name.kind = .identifier) :
    Restored (.varDecl name none) := by
  refine restored_row rfl (isWord_iff.2 rfl) ⟨spelled.isWord_of_identifier isName, trivial⟩ ?_
  show Stmt.varDecl (Token.ofLexeme name.lexeme) none = _
  rw [spelled.ofLexeme, relined]

theorem initialized (spelled : name.WellSpelled) (isName : name.kind = .identifier)
    (value : expr.Restored) : Restored (.varDecl name (some expr)) := by
  refine restored_row rfl (isWord_iff.2 rfl)
    ⟨spelled.isWord_of_identifier isName, value.clean, trivial⟩ ?_
  show Stmt.varDecl (Token.ofLexeme name.lexeme) (some expr.wordTree.expr) = _
  rw [spelled.ofLexeme, value.back, relined]

theorem block (restored : ∀ stmt ∈ stmts, stmt.Restored) : Restored (.block stmts) := by
  refine restored_row rfl (isWord_iff.2 rfl) (allClean_allWordTrees restored) ?_
  show Stmt.block (WordTree.stmts (allWordTrees stmts)) = _
  rw [stmts_allWordTrees restored, relined]

theorem conditional {condition : Expr Unit} {onTrue : Stmt Unit} (test : condition.Restored)
    (branch : onTrue.Restored) : Restored (.conditional condition onTrue none) := by
  refine restored_row rfl (isWord_iff.2 rfl) ⟨test.clean, branch.clean, trivial⟩ ?_
  show Stmt.conditional condition.wordTree.expr onTrue.wordTree.stmt none = _
  rw [test.back, branch.back, relined]

theorem alternative {condition : Expr Unit} {onTrue onFalse : Stmt Unit}
    (test : condition.Restored) (branch : onTrue.Restored) (other : onFalse.Restored) :
    Restored (.conditional condition onTrue (some onFalse)) := by
  refine restored_row rfl (isWord_iff.2 rfl) ⟨test.clean, branch.clean, other.clean, trivial⟩ ?_
  show Stmt.conditional condition.wordTree.expr onTrue.wordTree.stmt
    (some onFalse.wordTree.stmt) = _
  rw [test.back, branch.back, other.back, relined]

theorem whileLoop {condition : Expr Unit} (test : condition.Restored) (body : stmt.Restored) :
    Restored (.whileLoop condition stmt) := by
  refine restored_row rfl (isWord_iff.2 rfl) ⟨test.clean, body.clean, trivial⟩ ?_
  show Stmt.whileLoop condition.wordTree.expr stmt.wordTree.stmt = _
  rw [test.back, body.back, relined]

theorem returning (spelled : keyword.WellSpelled) (isReturn : keyword.kind = .keyword .returnWord) :
    Restored (.returning keyword none) := by
  refine restored_row rfl (isWord_iff.2 rfl) trivial ?_
  show Stmt.returning (Token.ofLexeme "return") none = _
  have lexeme : keyword.lexeme = "return" := spelled.lexeme_eq_of_keyword isReturn
  rw [← lexeme, spelled.ofLexeme, relined]

theorem returningValue (spelled : keyword.WellSpelled)
    (isReturn : keyword.kind = .keyword .returnWord) (value : expr.Restored) :
    Restored (.returning keyword (some expr)) := by
  refine restored_row rfl (isWord_iff.2 rfl) ⟨value.clean, trivial⟩ ?_
  show Stmt.returning (Token.ofLexeme "return") (some expr.wordTree.expr) = _
  have lexeme : keyword.lexeme = "return" := spelled.lexeme_eq_of_keyword isReturn
  rw [← lexeme, spelled.ofLexeme, value.back, relined]

theorem funDecl {parameters : List Token} (spelled : name.WellSpelled)
    (isName : name.kind = .identifier) (allSpelled : ∀ name ∈ parameters, name.WellSpelled)
    (areNames : ∀ name ∈ parameters, name.kind = .identifier)
    (restored : ∀ stmt ∈ stmts, stmt.Restored) :
    Restored (.funDecl (.mk name parameters stmts)) := by
  refine restored_row rfl (isWord_iff.2 rfl) ⟨spelled.isWord_of_identifier isName,
    allClean_names allSpelled areNames, allClean_allWordTrees restored⟩ ?_
  show Stmt.funDecl (.mk (Token.ofLexeme name.lexeme)
    ((parameters.map fun name => WordTree.word name.lexeme).map WordTree.token)
    (WordTree.stmts (allWordTrees stmts))) = _
  rw [spelled.ofLexeme, tokens_names allSpelled, stmts_allWordTrees restored, relined,
    functionRelined]

theorem classDecl (spelled : name.WellSpelled) (isName : name.kind = .identifier)
    (restored : ∀ method ∈ methods, Restored (.funDecl method)) :
    Restored (.classDecl name methods) := by
  refine restored_row rfl (isWord_iff.2 rfl)
    ⟨spelled.isWord_of_identifier isName, allClean_methodWordTrees restored⟩ ?_
  show Stmt.classDecl (Token.ofLexeme name.lexeme)
    ((WordTree.stmts (methodWordTrees methods)).filterMap declaration?) = _
  rw [spelled.ofLexeme, stmts_methodWordTrees restored, relined]

end Restored

/-- Restored statements that are written alike are the same, but for the lines of their
tokens. -/
theorem Restored.eq_of_prefixForm_eq {other : Stmt Unit} (restored : stmt.Restored)
    (restored' : other.Restored) (same : stmt.prefixForm = other.prefixForm) :
    stmt.relined noLine = other.relined noLine := by
  rw [← stmt.write_wordTree, ← other.write_wordTree] at same
  have wordTrees := WordTree.eq_of_write_eq restored.clean restored'.clean same
  rw [← restored.back, ← restored'.back, wordTrees]

end Stmt

end Lox
