/-
# Statements and programs that are read with numbers

A program that is read with numbers is the one that is read without labels, up to the
labels: it has the same statements and the same errors.  No two of its references have
the same number, and all numbers are ones that were drawn while it was read
(`Program.numbers_read`).  What a declaration has drawn before it was stopped by a
fault, is used up.
-/

import Lox.Proofs.Numbering.Expression

namespace Lox

open Labelled (unlabelled labels)

/-! ## The labels of statements -/

theorem labels_statements_cons (stmt : Stmt Reference) (others : List (Stmt Reference)) :
    labels (stmt :: others) = labels stmt ++ labels others :=
  List.map_append

/-- The labels of a statement that may be missing and of others. -/
theorem labels_toList_append (stmt : Option (Stmt Reference)) (others : List (Stmt Reference)) :
    labels (stmt.toList ++ others) = labels stmt ++ labels others := by
  cases stmt with
  | none => rfl
  | some stmt => exact labels_statements_cons stmt others

theorem unlabelled_toList_append (stmt : Option (Stmt Reference))
    (others : List (Stmt Reference)) :
    unlabelled (stmt.toList ++ others) = (unlabelled stmt).toList ++ unlabelled others := by
  cases stmt <;> rfl

theorem labels_conditional (condition : Expr Reference) (onTrue : Stmt Reference)
    (onFalse : Option (Stmt Reference)) :
    labels (Stmt.conditional condition onTrue onFalse) =
      labels condition ++ labels onTrue ++ labels onFalse := by
  cases onFalse <;> simp [labels, Expr.labels, Stmt.references]

theorem labels_whileLoop (condition : Expr Reference) (body : Stmt Reference) :
    labels (Stmt.whileLoop condition body) = labels condition ++ labels body :=
  List.map_append

theorem labels_methods_cons (method : FunctionDecl Reference)
    (others : List (FunctionDecl Reference)) :
    labels (method :: others) = labels method ++ labels others :=
  List.map_append

/-- The labels of a loop with clauses stand in the order in which it runs. -/
theorem labels_loopWithClauses (initializer : Option (Stmt Reference))
    (condition increment : Option (Expr Reference)) (body : Stmt Reference) :
    labels (loopWithClauses initializer condition increment body) =
      labels initializer ++ labels condition ++ labels body ++ labels increment := by
  cases initializer <;> cases condition <;> cases increment <;>
    simp [loopWithClauses, labels, Expr.labels, Expr.references, Stmt.references,
      Stmt.allReferences]

theorem unlabelled_loopWithClauses (initializer : Option (Stmt Reference))
    (condition increment : Option (Expr Reference)) (body : Stmt Reference) :
    unlabelled (loopWithClauses initializer condition increment body) =
      loopWithClauses (unlabelled initializer) (unlabelled condition) (unlabelled increment)
        (unlabelled body) := by
  cases initializer <;> cases condition <;> cases increment <;> rfl

/-! ## Declarations -/

/-- A reader of a declaration numbers what another one reads without labels. -/
def Declarer.Numbers {n : Nat} (declarer : Declarer (StateM Reference) Reference n)
    (plain : Declarer Id Unit n) : Prop :=
  Lox.Numbers (β := Declared Reference n) (α := Declared Unit n) [] declarer plain

namespace Declarer.Numbers

variable {n : Nat}

theorem ofReader {reader : Reader (StateM Reference) (Stmt Reference) (n + 1)}
    {plain : Reader Id (Stmt Unit) (n + 1)} (numbers : reader.Numbers [] plain) :
    (Declarer.ofReader reader).Numbers (.ofReader plain) := by
  refine Lox.Numbers.map (β := Reading (Stmt Reference) (n + 1))
    (δ := Declared Reference (n + 1)) [] numbers (g := Declared.ofReading)
    (fun reading => ?_) fun reading => ?_
  · cases reading <;> rfl
  · cases reading <;> exact .refl _

/-- The statements that are read behind a declaration. -/
theorem andThen {declarer : Declarer (StateM Reference) Reference n}
    {plain : Declarer Id Unit n} (numbers : declarer.Numbers plain)
    {further : (rest : List Token) → rest.length < n →
      Reader (StateM Reference) (List (Stmt Reference)) rest.length}
    {further' : (rest : List Token) → rest.length < n → Reader Id (List (Stmt Unit)) rest.length}
    (behind : ∀ rest shorter, (further rest shorter).Numbers [] (further' rest shorter)) :
    (declarer.andThen further).Numbers [] (plain.andThen further') := by
  refine Lox.Numbers.bind (β := Declared Reference n) (δ := Reading (List (Stmt Reference)) n) []
    numbers (fun found : Declarer Id Unit n => found.andThen further') fun declared => ?_
  rw [List.nil_append, ← List.append_nil (labels declared)]
  show Lox.Numbers (β := Reading (List (Stmt Reference)) n) (labels declared ++ [])
    (declared.followedBy <$> (further declared.rest declared.shorter : StateM Reference _))
    ((unlabelled declared).followedBy (further' declared.rest declared.shorter))
  refine Lox.Numbers.map (labels declared) (behind declared.rest declared.shorter)
    (fun reading => ?_) fun reading => ?_
  · cases reading with
    | done statements notices rest shorter =>
        exact congrArg
          (Reading.done · (declared.notices ++ notices) rest
            (Nat.lt_trans shorter declared.shorter))
          (unlabelled_toList_append declared.statement statements)
    | stuck => rfl
  · cases reading with
    | done statements notices rest shorter =>
        show (labels (declared.statement.toList ++ statements)).Subperm _
        rw [labels_toList_append]
        exact .refl _
    | stuck => exact List.nil_subperm

end Declarer.Numbers

/-! ## Parts of statements -/

section Parts

variable {tokens : List Token}

theorem numbers_expressionUnless (symbol : Symbol) : Reader.Numbers []
    (expressionUnless symbol tokens) (expressionUnless symbol tokens) := by
  cases tokens with
  | nil =>
      apply Reader.Numbers.behind
      exact (numbers_expression []).map (fun _ => rfl) fun _ => .refl _
  | cons first rest =>
      simp only [expressionUnless]
      split
      · exact .still (β := Option (Expr Reference)) none (first :: rest)
      · apply Reader.Numbers.behind
        exact (numbers_expression (first :: rest)).map (fun _ => rfl) fun _ => .refl _

theorem numbers_initialValue :
    Reader.Numbers [] (initialValue tokens) (initialValue tokens) := by
  cases tokens with
  | nil => exact .stopped .variableNotClosed []
  | cons first rest =>
      simp only [initialValue]
      split
      · apply Reader.Numbers.behind
        exact (numbers_expression rest).andThen fun value rest _ =>
          .closed (fun _ => rfl) fun _ => .refl _
      · exact .closed (fun _ => rfl) fun _ => .refl _

theorem numbers_varDeclaration :
    Reader.Numbers [] (varDeclaration tokens) (varDeclaration tokens) := by
  refine .after fun name rest _ => numbers_initialValue.map (fun value => ?_) fun value => ?_
  · cases value <;> rfl
  · cases value <;> exact .refl _

theorem numbers_printStatement :
    Reader.Numbers [] (printStatement tokens) (printStatement tokens) :=
  (numbers_expression tokens).andThen fun _ _ _ => .closed (fun _ => rfl) fun _ => .refl _

theorem numbers_returnStatement (keyword : Token) :
    Reader.Numbers [] (returnStatement keyword tokens) (returnStatement keyword tokens) := by
  refine (numbers_expressionUnless .semicolon).andThen fun value rest _ =>
    .closed (fun _ => ?_) fun _ => ?_
  · cases value <;> rfl
  · cases value <;> exact .refl _

theorem numbers_expressionStatement (trailing : Bool) :
    Reader.Numbers [] (expressionStatement trailing tokens)
      (expressionStatement trailing tokens) := by
  refine (numbers_expression tokens).andPerhaps fun expr rest _ => ?_
  split
  · exact .still (Stmt.expression expr) rest
  · apply Reader.Numbers.behind
    exact .closed (fun _ => rfl) fun _ => .refl _

theorem numbers_initializerClause (trailing : Bool) :
    Reader.Numbers [] (initializerClause trailing tokens) (initializerClause trailing tokens) := by
  cases tokens with
  | nil =>
      exact (numbers_expressionStatement trailing).map (fun _ => rfl) fun _ => .refl _
  | cons first rest =>
      simp only [initializerClause]
      split
      · exact .still (β := Option (Stmt Reference)) none rest
      · split
        · apply Reader.Numbers.behind
          exact numbers_varDeclaration.map (fun _ => rfl) fun _ => .refl _
        · exact (numbers_expressionStatement trailing).map (fun _ => rfl) fun _ => .refl _

theorem numbers_loopClauses (trailing : Bool) :
    Reader.Numbers [] (loopClauses trailing tokens) (loopClauses trailing tokens) :=
  .after fun _ _ _ => (numbers_initializerClause trailing).andPerhaps fun _ _ _ =>
    (numbers_expressionUnless .semicolon).andThen fun _ _ _ =>
      .afterPerhaps fun _ _ _ => (numbers_expressionUnless .rightParen).andThen fun _ _ _ =>
        .closed (fun _ => rfl) fun _ => .refl _

theorem numbers_condition (opening closing : SyntaxFault) :
    Reader.Numbers [] (condition opening closing tokens) (condition opening closing tokens) :=
  .after fun _ rest _ => (numbers_expression rest).andThen fun _ _ _ =>
    .closed (fun _ => rfl) fun _ => .refl _

end Parts

mutual

theorem numbers_parameters (count : Nat) (tokens : List Token) :
    Reader.Numbers [] (parameters count tokens) (parameters count tokens) := by
  rw [parameters, parameters]
  exact (numbers_expect.noticing _).andPerhaps fun first rest _ =>
    (numbers_furtherParameters (count + 1) rest).map (fun _ => rfl) fun _ => .refl _
termination_by tokens.length

theorem numbers_furtherParameters (count : Nat) (tokens : List Token) :
    Reader.Numbers [] (furtherParameters count tokens) (furtherParameters count tokens) := by
  match tokens with
  | [] =>
      rw [furtherParameters, furtherParameters]
      exact .still (β := List Token) [] []
  | first :: rest =>
      rw [furtherParameters, furtherParameters]
      split
      · exact (numbers_parameters count rest).behind.behind
      · exact .still (β := List Token) [] (first :: rest)
termination_by tokens.length

end

theorem numbers_parameterList (tokens : List Token) :
    Reader.Numbers [] (parameterList tokens) (parameterList tokens) := by
  cases tokens with
  | nil => exact .stopped .noParameterName []
  | cons first rest =>
      simp only [parameterList]
      split
      · exact .still (β := List Token) [] rest
      · exact (numbers_parameters 0 (first :: rest)).andThen fun _ _ _ =>
          .closed (fun _ => rfl) fun _ => .refl _

theorem numbers_functionHead (kind : FunctionKind) (tokens : List Token) :
    Reader.Numbers [] (functionHead kind tokens) (functionHead kind tokens) :=
  .after fun _ _ _ => .after fun _ rest _ => (numbers_parameterList rest).andThen fun _ _ _ =>
    .closed (fun _ => rfl) fun _ => .refl _

mutual

theorem numbers_declaration (trailing : Bool) (first : Token) (tokens : List Token) :
    Declarer.Numbers (declaration trailing first tokens) (declaration trailing first tokens) := by
  rw [declaration, declaration]
  apply Declarer.Numbers.ofReader
  split
  · exact (numbers_classDeclaration trailing tokens).behind
  · apply Reader.Numbers.behind
    exact (numbers_function trailing .function tokens).map (fun _ => rfl) fun _ => .refl _
  · exact numbers_varDeclaration.behind
  · exact numbers_statement trailing (first :: tokens)
termination_by 3 * tokens.length + 4
decreasing_by
  · omega
  · omega
  · simp only [List.length_cons]
    omega

theorem numbers_statement (trailing : Bool) (tokens : List Token) :
    Reader.Numbers [] (statement trailing tokens) (statement trailing tokens) := by
  match tokens with
  | [] =>
      rw [statement, statement]
      exact numbers_expressionStatement trailing
  | first :: rest =>
      rw [statement, statement]
      split
      · apply Reader.Numbers.behind
        refine (numbers_loopClauses trailing).andThen fun clauses rest _ =>
          (numbers_statement trailing rest).map (fun body => ?_) fun body => ?_
        · exact unlabelled_loopWithClauses _ _ _ body
        · -- The increment is read before the body and runs after it.
          have swapped : (labels body ++ labels clauses.increment).Perm
              (labels clauses.increment ++ labels body) := List.perm_append_comm
          rw [labels_loopWithClauses, List.append_assoc]
          apply (swapped.append_left _).subperm.trans
          rw [← List.append_assoc]
          exact .refl _
      · apply Reader.Numbers.behind
        refine (numbers_condition _ _).andThen fun condition rest _ =>
          (numbers_statement trailing rest).andPerhaps fun onTrue rest _ =>
            (numbers_alternative trailing rest).map (fun onFalse => ?_) fun onFalse => ?_
        · cases onFalse <;> rfl
        · rw [labels_conditional]
          exact .refl _
      · apply Reader.Numbers.behind
        refine (numbers_condition _ _).andThen fun condition rest _ =>
          (numbers_statement trailing rest).map (fun _ => rfl) fun body => ?_
        rw [labels_whileLoop]
        exact .refl _
      · exact numbers_returnStatement first
      · apply Reader.Numbers.behind
        exact (numbers_block trailing rest).map (fun _ => rfl) fun _ => .refl _
      · exact numbers_printStatement.behind
      · exact numbers_expressionStatement trailing
termination_by 3 * tokens.length
decreasing_by all_goals (simp only [List.length_cons]; omega)

theorem numbers_alternative (trailing : Bool) (tokens : List Token) :
    Reader.Numbers [] (alternative trailing tokens) (alternative trailing tokens) := by
  match tokens with
  | [] =>
      rw [alternative, alternative]
      exact .still (β := Option (Stmt Reference)) none []
  | first :: rest =>
      rw [alternative, alternative]
      split
      · apply Reader.Numbers.behind
        apply Reader.Numbers.behind
        exact (numbers_statement trailing rest).map (fun _ => rfl) fun _ => .refl _
      · exact .still (β := Option (Stmt Reference)) none (first :: rest)
termination_by 3 * tokens.length
decreasing_by
  simp only [List.length_cons]
  omega

theorem numbers_block (trailing : Bool) (tokens : List Token) :
    Reader.Numbers [] (block trailing tokens) (block trailing tokens) := by
  match tokens with
  | [] =>
      rw [block, block]
      exact .stopped .blockNotClosed []
  | first :: rest =>
      rw [block, block]
      split
      · exact .still (β := List (Stmt Reference)) [] rest
      · exact (numbers_declaration trailing first rest).andThen fun rest _ =>
          numbers_block trailing rest
termination_by 3 * tokens.length + 2
decreasing_by all_goals (simp only [List.length_cons] at *; omega)

theorem numbers_function (trailing : Bool) (kind : FunctionKind) (tokens : List Token) :
    Reader.Numbers [] (function trailing kind tokens) (function trailing kind tokens) := by
  rw [function, function]
  exact (numbers_functionHead kind tokens).andThen fun head rest _ =>
    (numbers_block trailing rest).map (fun _ => rfl) fun _ => .refl _
termination_by 3 * tokens.length
decreasing_by omega

theorem numbers_methods (trailing : Bool) (tokens : List Token) :
    Reader.Numbers [] (methods trailing tokens) (methods trailing tokens) := by
  match tokens with
  | [] =>
      rw [methods, methods]
      exact .still (β := List (FunctionDecl Reference)) [] []
  | first :: rest =>
      rw [methods, methods]
      split
      · exact .still (β := List (FunctionDecl Reference)) [] (first :: rest)
      · apply Reader.Numbers.behind
        refine (numbers_function trailing .method (first :: rest)).andPerhaps
          fun method rest _ => (numbers_methods trailing rest).map (fun _ => rfl) fun others => ?_
        rw [labels_methods_cons]
        exact .refl _
termination_by 3 * tokens.length + 1
decreasing_by
  · omega
  · simp only [List.length_cons] at *
    omega

theorem numbers_classDeclaration (trailing : Bool) (tokens : List Token) :
    Reader.Numbers [] (classDeclaration trailing tokens) (classDeclaration trailing tokens) := by
  rw [classDeclaration, classDeclaration]
  exact .after fun name rest _ => .afterPerhaps fun _ rest _ =>
    (numbers_methods trailing rest).andThen fun methods rest _ =>
      .closed (fun _ => rfl) fun _ => .refl _
termination_by 3 * tokens.length
decreasing_by omega

end

/-! ## Programs -/

theorem numbers_allDeclarations (trailing : Bool) (tokens : List Token) :
    Numbers [] (allDeclarations trailing tokens) (declarations trailing tokens) := by
  match tokens with
  | [] =>
      rw [allDeclarations, declarations_nil]
      exact .pure (β := List (Stmt Reference) × List Notice) List.nil_subperm
  | first :: rest =>
      rw [allDeclarations, declarations_cons]
      refine (numbers_declaration trailing first rest).bind (β := Declared Reference _)
        (δ := List (Stmt Reference) × List Notice) []
        (fun found => (found.statement.toList ++ (declarations trailing found.rest).1,
          found.notices ++ (declarations trailing found.rest).2)) fun declared => ?_
      rw [List.nil_append, ← List.append_nil (labels declared)]
      have := declared.shorter
      refine (numbers_allDeclarations trailing declared.rest).bind (labels declared)
        (fun found : List (Stmt Unit) × List Notice =>
          ((unlabelled declared).statement.toList ++ found.1, declared.notices ++ found.2))
        fun found => ?_
      show Numbers _ _ ((unlabelled declared.statement).toList ++ unlabelled found.1,
        declared.notices ++ found.2)
      rw [← unlabelled_toList_append]
      refine .pure (β := List (Stmt Reference) × List Notice) ?_
      show (labels (declared.statement.toList ++ found.1)).Subperm _
      rw [labels_toList_append]
      exact .refl _
termination_by tokens.length

/-- A program that is read with numbers is the one that is read without labels, and its
labels are numbers that were drawn. -/
theorem Program.numbers_read (trailing : Bool) (tokens : List Token) :
    Numbers [] (read trailing tokens) (ofTokens trailing tokens) := by
  refine (numbers_allDeclarations trailing (beforeEnd tokens)).bind
    (δ := LabelledProgram Reference) []
    (fun found => ⟨found.1, found.2.map (Notice.error (endLine tokens))⟩) fun found => ?_
  exact .pure (β := LabelledProgram Reference) (.refl _)

-- The name on the left side takes a number that is dropped, and the assignment the next one.
example : let ran := (Program.read (m := StateM Reference) false (tokensOf "a=1;")).run 0
    labels ran.1 = [1] ∧ ran.2 = 2 := by
  decide +kernel

end Lox
