/-
# Reading statements and declarations

A statement that cannot be read does not stop the reading of a program: the
fault is noticed, tokens are skipped up to a likely start of a statement, and
reading goes on there.  This happens at every declaration, inside blocks too,
so a block with a faulty statement is still a block.

A loop with clauses is read as the blocks and the conditional loop that it
stands for (`loopWithClauses`).

In the *trailing* mode an expression statement at the very end of the input
may leave its semicolon off.
-/

import Lox.Reading.Expression

namespace Lox

/-- Whether a statement may start at a token, for the purpose of skipping. -/
def startsStatement (token : Token) : Bool :=
  match token.kind with
  | .keyword .classWord => true
  | .keyword .funWord => true
  | .keyword .varWord => true
  | .keyword .forWord => true
  | .keyword .ifWord => true
  | .keyword .whileWord => true
  | .keyword .printWord => true
  | .keyword .returnWord => true
  | _ => false

/-- Skips tokens after a given one, up to one that follows a semicolon or may
start a statement. -/
def skipAfter (previous : Token) : List Token → List Token
  | [] => []
  | token :: rest =>
    if previous.isSymbol .semicolon || startsStatement token then token :: rest
    else skipAfter token rest

/-- Skips the token at which a fault was noticed and those after it up to a
likely start of a statement. -/
def resume : List Token → List Token
  | [] => []
  | token :: rest => skipAfter token rest

theorem length_skipAfter_le (previous : Token) (tokens : List Token) :
    (skipAfter previous tokens).length ≤ tokens.length := by
  induction tokens generalizing previous with
  | nil => simp [skipAfter]
  | cons token rest ih =>
    unfold skipAfter
    split
    · exact Nat.le_refl _
    · exact Nat.le_succ_of_le (ih token)

/-- Resuming leaves fewer tokens, if there were any. -/
theorem length_resume_lt {tokens : List Token} {further : Nat}
    (bound : tokens.length ≤ further + 1) : (resume tokens).length < further + 1 := by
  cases tokens with
  | nil => exact Nat.succ_pos further
  | cons token rest =>
    have := length_skipAfter_le token rest
    simp only [resume]
    simp only [List.length_cons] at bound
    omega

/-- What came of reading a declaration: the statement, if there was no fault
that stopped it, and the tokens from which to go on. -/
structure Declared (ρ : Type) (within : Nat) where
  statement : Option (Stmt ρ)
  notices : List Notice
  rest : List Token
  shorter : rest.length < within

namespace Declared

variable {ρ : Type}

/-- Goes on behind a reading; behind one that was stopped, where a statement
may start again. -/
def ofReading {further : Nat} : Reading (Stmt ρ) (further + 1) → Declared ρ (further + 1)
  | .done statement notices rest shorter => ⟨some statement, notices, rest, shorter⟩
  | .stuck notices fault rest bound =>
    ⟨none, notices ++ [⟨fault, rest.head?⟩], resume rest, length_resume_lt bound⟩

/-- A declaration and the statements that were read behind it. -/
def followedBy {n : Nat} (declared : Declared ρ n) :
    Reading (List (Stmt ρ)) declared.rest.length → Reading (List (Stmt ρ)) n
  | .done statements notices rest shorter =>
    .done (declared.statement.toList ++ statements) (declared.notices ++ notices) rest
      (Nat.lt_trans shorter declared.shorter)
  | .stuck notices fault rest bound =>
    .stuck (declared.notices ++ notices) fault rest
      (Nat.le_trans bound (Nat.le_of_lt declared.shorter))

end Declared

variable {m : Type → Type} [Monad m] {ρ : Type} [Labelling m ρ]

/-- An action that reads a declaration. -/
def Declarer (m : Type → Type) (ρ : Type) (within : Nat) : Type :=
  m (Declared ρ within)

namespace Declarer

/-- Reads a declaration that is this statement. -/
def ofReader {further : Nat} (reader : Reader m (Stmt ρ) (further + 1)) :
    Declarer m ρ (further + 1) :=
  (Declared.ofReading <$> reader : m _)

/-- Reads more statements behind a declaration. -/
def andThen {n : Nat} (declarer : Declarer m ρ n)
    (next : (rest : List Token) → rest.length < n → Reader m (List (Stmt ρ)) rest.length) :
    Reader m (List (Stmt ρ)) n :=
  ((declarer : m _) >>= fun declared =>
    (declared.followedBy <$> next declared.rest declared.shorter : m _) : m _)

end Declarer

/-- What a loop with clauses stands for.  The increment runs after the body of
every round, the initializer once before the loop, each of them in a block of
its own; without a condition the loop goes on until something else ends it. -/
def loopWithClauses (initializer : Option (Stmt ρ)) (condition increment : Option (Expr ρ))
    (body : Stmt ρ) : Stmt ρ :=
  let body :=
    match increment with
    | some increment => .block [body, .expression increment]
    | none => body
  let loop := .whileLoop (condition.getD (.literal (.boolean true))) body
  match initializer with
  | some initializer => .block [initializer, loop]
  | none => loop

/-- Reads an expression unless a symbol stands in its place. -/
def expressionUnless (symbol : Symbol) (tokens : List Token) :
    Reader m (Option (Expr ρ)) (tokens.length + 1) :=
  match tokens with
  | [] => ((expression []).map some).behind
  | first :: rest =>
    if first.isSymbol symbol then .still none (first :: rest)
    else ((expression (first :: rest)).map some).behind

mutual

/-- Reads the names of parameters separated by commas, the first of which
comes after `count` others. -/
def parameters (count : Nat) (tokens : List Token) : Reader m (List Token) tokens.length :=
  let notices := if mostArguments ≤ count then [⟨.tooManyParameters, tokens.head?⟩] else []
  ((expect Token.isIdentifier .noParameterName tokens).noticing notices).andPerhaps
    fun first rest _ => (furtherParameters (count + 1) rest).map (first :: ·)
termination_by tokens.length

/-- Reads the parameters behind the next comma, if there is one. -/
def furtherParameters (count : Nat) (tokens : List Token) :
    Reader m (List Token) (tokens.length + 1) :=
  match tokens with
  | [] => .still [] []
  | first :: rest =>
    if first.isSymbol .comma then (parameters count rest).behind.behind
    else .still [] (first :: rest)
termination_by tokens.length

end

/-- Reads the parameters of a function and the parenthesis that closes them. -/
def parameterList (tokens : List Token) : Reader m (List Token) tokens.length :=
  match tokens with
  | [] => .stopped .noParameterName []
  | first :: rest =>
    if first.isSymbol .rightParen then .still [] rest
    else
      (parameters 0 (first :: rest)).andThen fun names rest _ =>
        (expect (·.isSymbol .rightParen) .parameterListNotClosed rest).map fun _ => names

/-- Reads what a variable starts as, if a sign says so, and the semicolon. -/
def initialValue (tokens : List Token) : Reader m (Option (Expr ρ)) tokens.length :=
  match tokens with
  | [] => .stopped .variableNotClosed []
  | first :: rest =>
    if first.isSymbol .equal then
      ((expression rest).andThen fun value rest _ =>
        (expect (·.isSymbol .semicolon) .variableNotClosed rest).map fun _ => some value).behind
    else (expect (·.isSymbol .semicolon) .variableNotClosed (first :: rest)).map fun _ => none

/-- Reads a variable declaration behind its first word. -/
def varDeclaration (tokens : List Token) : Reader m (Stmt ρ) tokens.length :=
  (expect Token.isIdentifier .noVariableName tokens).andThen fun name rest _ =>
    (initialValue rest).map (.varDecl name)

/-- Reads a print statement behind its first word. -/
def printStatement (tokens : List Token) : Reader m (Stmt ρ) tokens.length :=
  (expression tokens).andThen fun expr rest _ =>
    (expect (·.isSymbol .semicolon) .printNotClosed rest).map fun _ => .print expr

/-- Reads a return statement behind its first word. -/
def returnStatement (keyword : Token) (tokens : List Token) :
    Reader m (Stmt ρ) (tokens.length + 1) :=
  (expressionUnless .semicolon tokens).andThen fun value rest _ =>
    (expect (·.isSymbol .semicolon) .returnNotClosed rest).map fun _ => .returning keyword value

/-- Reads an expression statement. -/
def expressionStatement (trailing : Bool) (tokens : List Token) :
    Reader m (Stmt ρ) tokens.length :=
  (expression tokens).andPerhaps fun expr rest _ =>
    if trailing && rest.isEmpty then .still (.expression expr) rest
    else
      ((expect (·.isSymbol .semicolon) .expressionNotClosed rest).map fun _ =>
        .expression expr).behind

/-- Reads the clause of a loop that runs first: nothing, a variable
declaration or an expression statement. -/
def initializerClause (trailing : Bool) (tokens : List Token) :
    Reader m (Option (Stmt ρ)) tokens.length :=
  match tokens with
  | [] => (expressionStatement trailing []).map some
  | first :: rest =>
    if first.isSymbol .semicolon then .still none rest
    else if first.isKeyword .varWord then ((varDeclaration rest).map some).behind
    else (expressionStatement trailing (first :: rest)).map some

/-- The clauses of a loop. -/
structure Clauses (ρ : Type) where
  initializer : Option (Stmt ρ)
  condition : Option (Expr ρ)
  increment : Option (Expr ρ)

/-- Reads the clauses of a loop in their parentheses. -/
def loopClauses (trailing : Bool) (tokens : List Token) : Reader m (Clauses ρ) tokens.length :=
  (expect (·.isSymbol .leftParen) .noForClauses tokens).andThen fun _ rest _ =>
    (initializerClause trailing rest).andPerhaps fun initializer rest _ =>
      (expressionUnless .semicolon rest).andThen fun condition rest _ =>
        (expect (·.isSymbol .semicolon) .loopConditionNotClosed rest).andPerhaps fun _ rest _ =>
          (expressionUnless .rightParen rest).andThen fun increment rest _ =>
            (expect (·.isSymbol .rightParen) .forClausesNotClosed rest).map fun _ =>
              ⟨initializer, condition, increment⟩

/-- Reads the condition of a conditional or a loop in its parentheses. -/
def condition (opening closing : SyntaxFault) (tokens : List Token) :
    Reader m (Expr ρ) tokens.length :=
  (expect (·.isSymbol .leftParen) opening tokens).andThen fun _ rest _ =>
    (expression rest).andThen fun condition rest _ =>
      (expect (·.isSymbol .rightParen) closing rest).map fun _ => condition

/-- Reads the name and the parameters of a function, up to the brace that
opens its body. -/
def functionHead (kind : FunctionKind) (tokens : List Token) :
    Reader m (Token × List Token) tokens.length :=
  (expect Token.isIdentifier (.noFunctionName kind) tokens).andThen fun name rest _ =>
    (expect (·.isSymbol .leftParen) (.noParameterList kind) rest).andThen fun _ rest _ =>
      (parameterList rest).andThen fun parameters rest _ =>
        (expect (·.isSymbol .leftBrace) (.noFunctionBody kind) rest).map fun _ =>
          (name, parameters)

mutual

/-- Reads a declaration or a statement, of which the first token is given. -/
def declaration (trailing : Bool) (first : Token) (tokens : List Token) :
    Declarer m ρ (tokens.length + 1) :=
  Declarer.ofReader <|
    match first.kind with
    | .keyword .classWord => (classDeclaration trailing tokens).behind
    | .keyword .funWord => ((function trailing .function tokens).map .funDecl).behind
    | .keyword .varWord => (varDeclaration tokens).behind
    | _ => statement trailing (first :: tokens)
termination_by 3 * tokens.length + 4
decreasing_by
  · omega
  · omega
  · simp only [List.length_cons]
    omega

/-- Reads a statement. -/
def statement (trailing : Bool) (tokens : List Token) : Reader m (Stmt ρ) tokens.length :=
  match tokens with
  | [] => expressionStatement trailing []
  | first :: rest =>
    match first.kind with
    | .keyword .forWord =>
      ((loopClauses trailing rest).andThen fun clauses rest _ =>
        (statement trailing rest).map
          (loopWithClauses clauses.initializer clauses.condition clauses.increment)).behind
    | .keyword .ifWord =>
      ((condition .noIfCondition .ifConditionNotClosed rest).andThen fun condition rest _ =>
        (statement trailing rest).andPerhaps fun onTrue rest _ =>
          (alternative trailing rest).map (.conditional condition onTrue)).behind
    | .keyword .whileWord =>
      ((condition .noWhileCondition .whileConditionNotClosed rest).andThen
        fun condition rest _ => (statement trailing rest).map (.whileLoop condition)).behind
    | .keyword .returnWord => returnStatement first rest
    | .symbol .leftBrace => ((block trailing rest).map .block).behind
    | .keyword .printWord => (printStatement rest).behind
    | _ => expressionStatement trailing (first :: rest)
termination_by 3 * tokens.length
decreasing_by all_goals (simp only [List.length_cons]; omega)

/-- Reads the other statement of a conditional, if there is one. -/
def alternative (trailing : Bool) (tokens : List Token) :
    Reader m (Option (Stmt ρ)) (tokens.length + 1) :=
  match tokens with
  | [] => .still none []
  | first :: rest =>
    if first.isKeyword .elseWord then ((statement trailing rest).map some).behind.behind
    else .still none (first :: rest)
termination_by 3 * tokens.length
decreasing_by
  simp only [List.length_cons]
  omega

/-- Reads the statements of a block and the brace that closes it. -/
def block (trailing : Bool) (tokens : List Token) : Reader m (List (Stmt ρ)) tokens.length :=
  match tokens with
  | [] => .stopped .blockNotClosed []
  | first :: rest =>
    if first.isSymbol .rightBrace then .still [] rest
    else (declaration trailing first rest).andThen fun rest _ => block trailing rest
termination_by 3 * tokens.length + 2
decreasing_by all_goals (simp only [List.length_cons]; omega)

/-- Reads a function behind its first word, if it has one. -/
def function (trailing : Bool) (kind : FunctionKind) (tokens : List Token) :
    Reader m (FunctionDecl ρ) tokens.length :=
  (functionHead kind tokens).andThen fun (name, parameters) rest _ =>
    (block trailing rest).map (.mk name parameters)
termination_by 3 * tokens.length
decreasing_by omega

/-- Reads methods up to the brace that closes a class or the end. -/
def methods (trailing : Bool) (tokens : List Token) :
    Reader m (List (FunctionDecl ρ)) (tokens.length + 1) :=
  match tokens with
  | [] => .still [] []
  | first :: rest =>
    if first.isSymbol .rightBrace then .still [] (first :: rest)
    else
      ((function trailing .method (first :: rest)).andPerhaps fun method rest _ =>
        (methods trailing rest).map (method :: ·)).behind
termination_by 3 * tokens.length + 1
decreasing_by
  · omega
  · simp only [List.length_cons] at *
    omega

/-- Reads a class declaration behind its first word. -/
def classDeclaration (trailing : Bool) (tokens : List Token) :
    Reader m (Stmt ρ) tokens.length :=
  (expect Token.isIdentifier .noClassName tokens).andThen fun name rest _ =>
    (expect (·.isSymbol .leftBrace) .noClassBody rest).andPerhaps fun _ rest _ =>
      (methods trailing rest).andThen fun methods rest _ =>
        (expect (·.isSymbol .rightBrace) .classBodyNotClosed rest).map fun _ =>
          .classDecl name methods
termination_by 3 * tokens.length
decreasing_by omega

end

end Lox
