/-
# Trees as word trees, and back

Every expression and every statement has a word tree (`Expr.wordTree`, `Stmt.wordTree`):
its prefix notation with words and rows told apart.  A word tree is read back by its
first word and the number of its parts, and a word as the token that it is cut into
(`WordTree.expr`, `WordTree.stmt`).

This module makes no claim that what is read back is the tree.  It is for trees whose
words are words, and that depends on where the trees come from.
-/

import Lox.Proofs.PrefixForm.WordTrees

namespace Lox

variable {ρ : Type}

/-! ## The word tree of a tree -/

namespace Expr

mutual

/-- The word tree of an expression. -/
def wordTree : Expr ρ → WordTree
  | literal value => .word value.prefixForm
  | grouping inner => .row [.word "group", inner.wordTree]
  | unary operator operand => .row [.word operator.lexeme, operand.wordTree]
  | binary left operator right => .row [.word operator.lexeme, left.wordTree, right.wordTree]
  | logical left operator right => .row [.word operator.lexeme, left.wordTree, right.wordTree]
  | .variable _ name => .word name.lexeme
  | assign _ name value => .row [.word "=", .word name.lexeme, value.wordTree]
  | call callee _ arguments => .row (.word "call" :: callee.wordTree :: allWordTrees arguments)
  | get object name => .row [.word ".", object.wordTree, .word name.lexeme]
  | set object name value => .row [.word "set", object.wordTree, .word name.lexeme, value.wordTree]
  | this _ _ => .word "this"

/-- The word trees of a row of expressions. -/
def allWordTrees : List (Expr ρ) → List WordTree
  | [] => []
  | expr :: rest => expr.wordTree :: allWordTrees rest

end

theorem allWordTrees_eq_map (exprs : List (Expr ρ)) :
    allWordTrees exprs = exprs.map wordTree := by
  induction exprs with
  | nil => rfl
  | cons expr rest ih => rw [allWordTrees, ih, List.map_cons]

mutual

/-- The prefix notation of an expression is the text of its word tree. -/
theorem write_wordTree (expr : Expr ρ) : expr.wordTree.write = expr.prefixForm := by
  match expr with
  | literal value => rw [wordTree, WordTree.write_word, prefixForm]
  | grouping inner => simp [wordTree, WordTree.write_row, prefixForm, write_wordTree inner]
  | unary operator operand =>
      simp [wordTree, WordTree.write_row, prefixForm, write_wordTree operand]
  | binary left operator right =>
      simp [wordTree, WordTree.write_row, prefixForm, write_wordTree left, write_wordTree right]
  | logical left operator right =>
      simp [wordTree, WordTree.write_row, prefixForm, write_wordTree left, write_wordTree right]
  | .variable _ name => rw [wordTree, WordTree.write_word, prefixForm]
  | assign _ name value => simp [wordTree, WordTree.write_row, prefixForm, write_wordTree value]
  | call callee _ arguments =>
      simp [wordTree, WordTree.write_row, prefixForm, write_wordTree callee,
        map_write_allWordTrees arguments]
  | get object name => simp [wordTree, WordTree.write_row, prefixForm, write_wordTree object]
  | set object name value =>
      simp [wordTree, WordTree.write_row, prefixForm, write_wordTree object, write_wordTree value]
  | this _ _ => rw [wordTree, WordTree.write_word, prefixForm]

theorem map_write_allWordTrees (exprs : List (Expr ρ)) :
    (allWordTrees exprs).map WordTree.write = allPrefixForms exprs := by
  match exprs with
  | [] => rfl
  | expr :: rest =>
      rw [allWordTrees, List.map_cons, write_wordTree expr, map_write_allWordTrees rest,
        allPrefixForms]

end

end Expr

namespace Stmt

mutual

/-- The word tree of a statement. -/
def wordTree : Stmt ρ → WordTree
  | expression expr => .row [.word ";", expr.wordTree]
  | print expr => .row [.word "print", expr.wordTree]
  | varDecl name none => .row [.word "var", .word name.lexeme]
  | varDecl name (some expr) => .row [.word "var", .word name.lexeme, expr.wordTree]
  | block body => .row (.word "block" :: allWordTrees body)
  | conditional condition onTrue none => .row [.word "if", condition.wordTree, onTrue.wordTree]
  | conditional condition onTrue (some onFalse) =>
    .row [.word "if", condition.wordTree, onTrue.wordTree, onFalse.wordTree]
  | whileLoop condition body => .row [.word "while", condition.wordTree, body.wordTree]
  | funDecl declaration => functionWordTree declaration
  | returning _ none => .row [.word "return"]
  | returning _ (some expr) => .row [.word "return", expr.wordTree]
  | classDecl name methods => .row (.word "class" :: .word name.lexeme :: methodWordTrees methods)

/-- The word tree of a function declaration. -/
def functionWordTree : FunctionDecl ρ → WordTree
  | .mk name parameters body =>
    .row (.word "fun" :: .word name.lexeme ::
      .row (parameters.map fun parameter => .word parameter.lexeme) :: allWordTrees body)

/-- The word trees of method declarations. -/
def methodWordTrees : List (FunctionDecl ρ) → List WordTree
  | [] => []
  | method :: rest => functionWordTree method :: methodWordTrees rest

/-- The word trees of a row of statements. -/
def allWordTrees : List (Stmt ρ) → List WordTree
  | [] => []
  | stmt :: rest => stmt.wordTree :: allWordTrees rest

end

theorem allWordTrees_eq_map (stmts : List (Stmt ρ)) :
    allWordTrees stmts = stmts.map wordTree := by
  induction stmts with
  | nil => rfl
  | cons stmt rest ih => rw [allWordTrees, ih, List.map_cons]

theorem methodWordTrees_eq_map (methods : List (FunctionDecl ρ)) :
    methodWordTrees methods = methods.map functionWordTree := by
  induction methods with
  | nil => rfl
  | cons method rest ih => rw [methodWordTrees, ih, List.map_cons]

mutual

/-- The prefix notation of a statement is the text of its word tree. -/
theorem write_wordTree (stmt : Stmt ρ) : stmt.wordTree.write = stmt.prefixForm := by
  match stmt with
  | expression expr => simp [wordTree, WordTree.write_row, prefixForm, expr.write_wordTree]
  | print expr => simp [wordTree, WordTree.write_row, prefixForm, expr.write_wordTree]
  | varDecl name none => simp [wordTree, WordTree.write_row, prefixForm]
  | varDecl name (some expr) => simp [wordTree, WordTree.write_row, prefixForm, expr.write_wordTree]
  | block body => simp [wordTree, WordTree.write_row, prefixForm, map_write_allWordTrees body]
  | conditional condition onTrue none =>
      simp [wordTree, WordTree.write_row, prefixForm, condition.write_wordTree,
        write_wordTree onTrue]
  | conditional condition onTrue (some onFalse) =>
      simp [wordTree, WordTree.write_row, prefixForm, condition.write_wordTree,
        write_wordTree onTrue, write_wordTree onFalse]
  | whileLoop condition body =>
      simp [wordTree, WordTree.write_row, prefixForm, condition.write_wordTree, write_wordTree body]
  | funDecl declaration => rw [wordTree, prefixForm, write_functionWordTree declaration]
  | returning _ none => simp [wordTree, WordTree.write_row, prefixForm]
  | returning _ (some expr) => simp [wordTree, WordTree.write_row, prefixForm, expr.write_wordTree]
  | classDecl name methods =>
      simp [wordTree, WordTree.write_row, prefixForm, map_write_methodWordTrees methods]

theorem write_functionWordTree (declaration : FunctionDecl ρ) :
    (functionWordTree declaration).write = functionPrefixForm declaration := by
  match declaration with
  | .mk name parameters body =>
      have words :
          (parameters.map fun parameter => WordTree.word parameter.lexeme).map WordTree.write =
            parameters.map Token.lexeme := by simp
      simp [functionWordTree, WordTree.write_row, functionPrefixForm, map_write_allWordTrees body,
        words]

theorem map_write_methodWordTrees (methods : List (FunctionDecl ρ)) :
    (methodWordTrees methods).map WordTree.write = methodPrefixForms methods := by
  match methods with
  | [] => rfl
  | method :: rest =>
      rw [methodWordTrees, List.map_cons, write_functionWordTree method,
        map_write_methodWordTrees rest, methodPrefixForms]

theorem map_write_allWordTrees (stmts : List (Stmt ρ)) :
    (allWordTrees stmts).map WordTree.write = allPrefixForms stmts := by
  match stmts with
  | [] => rfl
  | stmt :: rest =>
      rw [allWordTrees, List.map_cons, write_wordTree stmt, map_write_allWordTrees rest,
        allPrefixForms]

end

end Stmt

/-! ## Reading word trees back -/

/-- The token that a text is cut into, without a line. -/
def Token.ofLexeme (lexeme : String) : Token :=
  match segments lexeme.toList with
  | [⟨_, .token kind⟩] => ⟨kind, lexeme, 0⟩
  | _ => .atEnd 0

/-- The token of a word. -/
def WordTree.token : WordTree → Token
  | word text => .ofLexeme text
  | row _ => .atEnd 0

/-- The tokens of a row of words. -/
def WordTree.tokens : WordTree → List Token
  | word _ => []
  | row parts => parts.map token

/-- The expression of a row by its first word, from the other parts and the expressions
that they are. -/
def Expr.ofRow (head : String) (parts : List WordTree) (inner : List (Expr Unit)) : Expr Unit :=
  match head, parts, inner with
  | "group", _, [inner] => .grouping inner
  | "=", name :: _, [_, value] => .assign () name.token value
  | "call", _, callee :: arguments => .call callee (.ofLexeme ")") arguments
  | ".", [_, name], [object, _] => .get object name.token
  | "set", [_, name, _], [object, _, value] => .set object name.token value
  | "and", _, [left, right] => .logical left (.ofLexeme "and") right
  | "or", _, [left, right] => .logical left (.ofLexeme "or") right
  | _, _, [operand] => .unary (.ofLexeme head) operand
  | _, _, [left, right] => .binary left (.ofLexeme head) right
  | _, _, _ => .literal .nil

namespace WordTree

mutual

/-- The expression that a word tree is read as. -/
def expr : WordTree → Expr Unit
  | word text => (atom? (.ofLexeme text)).getD (.literal .nil)
  | row (word head :: parts) => .ofRow head parts (exprs parts)
  | row _ => .literal .nil

/-- The expressions of a row of parts. -/
def exprs : List WordTree → List (Expr Unit)
  | [] => []
  | part :: rest => part.expr :: exprs rest

end

theorem exprs_eq_map (parts : List WordTree) : exprs parts = parts.map expr := by
  induction parts with
  | nil => rfl
  | cons part rest ih => rw [exprs, ih, List.map_cons]

end WordTree

/-- The function that a statement declares. -/
def Stmt.declaration? : Stmt ρ → Option (FunctionDecl ρ)
  | funDecl declaration => some declaration
  | _ => none

/-- The statement of a row by its first word, from the other parts and the statements
that they are. -/
def Stmt.ofRow (head : String) (parts : List WordTree) (inner : List (Stmt Unit)) : Stmt Unit :=
  match head, parts, inner with
  | ";", [whole], _ => .expression whole.expr
  | "print", [whole], _ => .print whole.expr
  | "var", [name], _ => .varDecl name.token none
  | "var", [name, value], _ => .varDecl name.token (some value.expr)
  | "block", _, body => .block body
  | "if", [condition, _], [_, onTrue] => .conditional condition.expr onTrue none
  | "if", [condition, _, _], [_, onTrue, onFalse] =>
    .conditional condition.expr onTrue (some onFalse)
  | "while", [condition, _], [_, body] => .whileLoop condition.expr body
  | "fun", name :: parameters :: _, _ :: _ :: body =>
    .funDecl (.mk name.token parameters.tokens body)
  | "return", [], _ => .returning (.ofLexeme "return") none
  | "return", [value], _ => .returning (.ofLexeme "return") (some value.expr)
  | "class", name :: _, _ :: methods => .classDecl name.token (methods.filterMap declaration?)
  | _, _, _ => .block []

namespace WordTree

mutual

/-- The statement that a word tree is read as. -/
def stmt : WordTree → Stmt Unit
  | row (word head :: parts) => .ofRow head parts (stmts parts)
  | _ => .block []

/-- The statements of a row of parts. -/
def stmts : List WordTree → List (Stmt Unit)
  | [] => []
  | part :: rest => part.stmt :: stmts rest

end

theorem stmts_eq_map (parts : List WordTree) : stmts parts = parts.map stmt := by
  induction parts with
  | nil => rfl
  | cons part rest ih => rw [stmts, ih, List.map_cons]

end WordTree

end Lox
