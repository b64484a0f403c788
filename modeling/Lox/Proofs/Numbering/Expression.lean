/-
# Expressions that are read with numbers

An expression that is read with numbers is the one that is read without labels, up to
the labels.  A name or the word `this` draws a number where it is read.  An assignment
draws one once its value is read, and the number of the name that stood on its left side
is dropped; if the left side cannot be assigned to, it is the whole expression, and the
numbers of the value are dropped.
-/

import Lox.Proofs.Numbering.Readers

namespace Lox

open Labelled (unlabelled labels)

/-- A tree whose label is drawn when it is made of others. -/
theorem Numbers.labelled {β α : Type} [Labelled β α] {given : List Nat} {f : Reference → β}
    {plain : α} (agrees : ∀ reference, unlabelled (f reference) = plain)
    (among : ∀ reference, (labels (f reference)).Subperm (given ++ [reference])) :
    Numbers given (do return f (← Labelling.label)) plain := by
  rw [← List.append_nil given]
  refine Numbers.label.bind given (fun _ => plain) fun reference => ?_
  rw [← agrees reference]
  exact .pure (among reference)

/-! ## The labels of trees -/

theorem labels_assign (reference : Reference) (name : Token) (value : Expr Reference) :
    (Expr.assign reference name value).labels = value.labels ++ [reference] :=
  List.map_append

theorem labels_set (object : Expr Reference) (name : Token) (value : Expr Reference) :
    (Expr.set object name value).labels = object.labels ++ value.labels :=
  List.map_append

theorem labels_call (callee : Expr Reference) (paren : Token) (arguments : List (Expr Reference)) :
    (Expr.call callee paren arguments).labels = callee.labels ++ labels arguments :=
  List.map_append

theorem labels_cons (first : Expr Reference) (others : List (Expr Reference)) :
    labels (first :: others) = first.labels ++ labels others :=
  List.map_append

/-- The node of an operation has the labels of its operands. -/
theorem labels_node (level : Precedence) (left : Expr Reference) (operator : Token)
    (right : Expr Reference) :
    (level.node left operator right).labels = left.labels ++ right.labels := by
  cases level <;> exact List.map_append

theorem unlabelled_node (level : Precedence) (left : Expr Reference) (operator : Token)
    (right : Expr Reference) :
    (level.node left operator right).unlabelled =
      level.node left.unlabelled operator right.unlabelled := by
  cases level <;> rfl

/-- An assignment is made of its left side and its value. -/
theorem numbers_assigned (target : Expr Reference) (equals : Token) (value : Expr Reference) :
    Numbers (target.labels ++ value.labels) (assigned target equals value)
      (assigned (m := Id) target.unlabelled equals value.unlabelled) := by
  cases target with
  | «variable» reference name =>
      -- The number of the name on the left side is dropped.
      refine .labelled (fun _ => rfl) fun own => ?_
      show (Expr.assign own name value).labels.Subperm ([reference] ++ value.labels ++ [own])
      rw [labels_assign]
      exact (List.sublist_cons_self reference (value.labels ++ [own])).subperm
  | get object name =>
      refine .pure (β := Expr Reference × List Notice) ?_
      show (Expr.set object name value).labels.Subperm (object.labels ++ value.labels)
      rw [labels_set]
  | _ =>
      exact .pure (β := Expr Reference × List Notice) (List.sublist_append_left _ _).subperm

/-- An atom may be a reference, whose number is drawn where it is read. -/
theorem numbers_atom (first : Token) :
    (atom? (m := StateM Reference) first = none ∧ atom? (m := Id) first = none) ∨
      ∃ atom plain, atom? first = some atom ∧ atom? first = some plain ∧
        Numbers [] atom (plain : Expr Unit) := by
  unfold atom?
  split
  case h_6 =>
    exact .inr ⟨_, _, rfl, rfl, .labelled (fun _ => rfl) fun _ => .refl _⟩
  case h_7 =>
    exact .inr ⟨_, _, rfl, rfl, .labelled (fun _ => rfl) fun _ => .refl _⟩
  case h_8 => exact .inl ⟨rfl, rfl⟩
  all_goals exact .inr ⟨_, _, rfl, rfl, .pure (β := Expr Reference) List.nil_subperm⟩

mutual

theorem numbers_expression (tokens : List Token) :
    Reader.Numbers [] (expression tokens) (expression tokens) := by
  rw [expression, expression]
  exact (numbers_operation .disjunction tokens).andPerhaps fun target rest _ =>
    numbers_assignment target rest
termination_by 18 * tokens.length + 15
decreasing_by
  · simp only [Precedence.height]
    omega
  · omega

theorem numbers_assignment (target : Expr Reference) (tokens : List Token) :
    Reader.Numbers target.labels (assignment target tokens)
      (assignment target.unlabelled tokens) := by
  match tokens with
  | [] =>
      rw [assignment, assignment]
      exact .still target []
  | first :: rest =>
      rw [assignment, assignment]
      split
      · apply Reader.Numbers.behind
        apply Reader.Numbers.behind
        exact (numbers_expression rest).andPerhaps fun value rest _ =>
          .acting (numbers_assigned target first value) fun made =>
            (Reader.Numbers.still made.1 rest).noticing made.2
      · exact .still target (first :: rest)
termination_by 18 * tokens.length
decreasing_by
  simp only [List.length_cons]
  omega

theorem numbers_operation (level : Precedence) (tokens : List Token) :
    Reader.Numbers [] (operation level tokens) (operation level tokens) := by
  rw [operation, operation]
  exact (numbers_operand level tokens).andPerhaps fun left rest _ =>
    numbers_operations level left rest
termination_by 18 * tokens.length + 2 * level.height + 2
decreasing_by all_goals omega

theorem numbers_operand (level : Precedence) (tokens : List Token) :
    Reader.Numbers [] (operand level tokens) (operand level tokens) := by
  rw [operand, operand]
  split
  · next next tighter =>
      have := Precedence.height_tighter? tighter
      exact numbers_operation next tokens
  · have := level.height_pos
    exact numbers_prefixed tokens
termination_by 18 * tokens.length + 2 * level.height + 1
decreasing_by all_goals omega

theorem numbers_operations (level : Precedence) (left : Expr Reference) (tokens : List Token) :
    Reader.Numbers left.labels (operations level left tokens)
      (operations level left.unlabelled tokens) := by
  match tokens with
  | [] =>
      rw [operations, operations]
      exact .still left []
  | first :: rest =>
      rw [operations, operations]
      split
      · have := level.height_le
        apply Reader.Numbers.behind
        apply Reader.Numbers.behind
        refine (numbers_operand level rest).andPerhaps fun right rest shorter => ?_
        have further := numbers_operations level (level.node left first right) rest
        rw [labels_node, unlabelled_node] at further
        exact further
      · exact .still left (first :: rest)
termination_by 18 * tokens.length
decreasing_by
  · simp only [List.length_cons]
    omega
  · simp only [List.length_cons]
    omega

theorem numbers_prefixed (tokens : List Token) :
    Reader.Numbers [] (prefixed tokens) (prefixed tokens) := by
  match tokens with
  | [] =>
      rw [prefixed, prefixed]
      exact .stopped .noExpression []
  | first :: rest =>
      rw [prefixed, prefixed]
      split
      · apply Reader.Numbers.behind
        exact (numbers_prefixed rest).map (fun _ => rfl) fun _ => .refl _
      · exact (numbers_primary first rest).andPerhaps fun callee rest _ =>
          numbers_suffixes callee rest
termination_by 18 * tokens.length + 2
decreasing_by all_goals (simp only [List.length_cons]; omega)

theorem numbers_suffixes (callee : Expr Reference) (tokens : List Token) :
    Reader.Numbers callee.labels (suffixes callee tokens)
      (suffixes callee.unlabelled tokens) := by
  match tokens with
  | [] =>
      rw [suffixes, suffixes]
      exact .still callee []
  | first :: rest =>
      rw [suffixes, suffixes]
      split
      · apply Reader.Numbers.behind
        apply Reader.Numbers.behind
        refine (numbers_argumentList rest).andPerhaps fun given rest shorter => ?_
        have further := numbers_suffixes (.call callee given.2 given.1) rest
        rw [labels_call] at further
        exact further
      · split
        · apply Reader.Numbers.behind
          apply Reader.Numbers.behind
          exact .afterPerhaps fun name rest _ => numbers_suffixes (.get callee name) rest
        · exact .still callee (first :: rest)
termination_by 18 * tokens.length
decreasing_by all_goals (simp only [List.length_cons]; omega)

theorem numbers_argumentList (tokens : List Token) :
    Reader.Numbers [] (argumentList tokens) (argumentList tokens) := by
  match tokens with
  | [] =>
      rw [argumentList, argumentList]
      exact .stopped .noExpression []
  | first :: rest =>
      rw [argumentList, argumentList]
      split
      · exact .still (β := List (Expr Reference) × Token) ([], first) rest
      · exact (numbers_arguments 0 (first :: rest)).andThen fun arguments rest _ =>
          .closed (fun _ => rfl) fun _ => .refl _
termination_by 18 * tokens.length + 17
decreasing_by omega

theorem numbers_arguments (count : Nat) (tokens : List Token) :
    Reader.Numbers [] (arguments count tokens) (arguments count tokens) := by
  rw [arguments, arguments]
  refine ((numbers_expression tokens).noticing _).andPerhaps fun first rest _ => ?_
  refine (numbers_furtherArguments (count + 1) rest).map (fun _ => rfl) fun others => ?_
  rw [labels_cons]
  exact .refl _
termination_by 18 * tokens.length + 16
decreasing_by all_goals omega

theorem numbers_furtherArguments (count : Nat) (tokens : List Token) :
    Reader.Numbers [] (furtherArguments count tokens) (furtherArguments count tokens) := by
  match tokens with
  | [] =>
      rw [furtherArguments, furtherArguments]
      exact .still (β := List (Expr Reference)) [] []
  | first :: rest =>
      rw [furtherArguments, furtherArguments]
      split
      · exact (numbers_arguments count rest).behind.behind
      · exact .still (β := List (Expr Reference)) [] (first :: rest)
termination_by 18 * tokens.length
decreasing_by
  simp only [List.length_cons]
  omega

theorem numbers_primary (first : Token) (tokens : List Token) :
    Reader.Numbers [] (primary first tokens) (primary first tokens) := by
  rw [primary, primary]
  rcases numbers_atom first with ⟨none, none'⟩ | ⟨atom, plain, found, found', numbers⟩
  · simp only [none, none']
    split
    · apply Reader.Numbers.behind
      exact (numbers_expression tokens).andThen fun inner rest _ =>
        .closed (fun _ => rfl) fun _ => .refl _
    · exact .stopped .noExpression (first :: tokens)
  · simp only [found, found']
    exact .acting numbers fun expr => .still expr tokens
termination_by 18 * tokens.length + 16
decreasing_by omega

end

end Lox
