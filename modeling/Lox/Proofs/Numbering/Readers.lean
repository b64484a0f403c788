/-
# Readers that number references

A reader may draw the numbers of references from a supply while it reads.  Such a
reader *numbers* what another one reads without labels if, from whatever number it
starts, it reads the same phrase up to the labels, notices the same faults and leaves
the same tokens, and if the labels of the phrase are drawn from its number on or are
those of the trees that it was given (`Numbers`).  Numbers that are drawn for what is
then dropped, because a fault is noticed, are used up all the same.

Each way of putting readers together keeps that.
-/

import Lox.Proofs.Numbering
import Lox.Proofs.Reading

namespace Lox

/-! ## What carries labels -/

/-- Something that carries labels: what it is without them, and which it carries. -/
class Labelled (β : Type) (α : outParam Type) where
  unlabelled : β → α
  labels : β → List Nat

open Labelled (unlabelled labels)

instance : Labelled Reference Unit where
  unlabelled _ := ()
  labels reference := [reference]

instance : Labelled Token Token where
  unlabelled := id
  labels _ := []

instance : Labelled (List Token) (List Token) where
  unlabelled := id
  labels _ := []

instance : Labelled (Token × List Token) (Token × List Token) where
  unlabelled := id
  labels _ := []

instance : Labelled (Expr Reference) (Expr Unit) where
  unlabelled := Expr.unlabelled
  labels := Expr.labels

instance : Labelled (List (Expr Reference)) (List (Expr Unit)) where
  unlabelled := Expr.allUnlabelled
  labels exprs := (Expr.allReferences exprs).map Prod.fst

instance : Labelled (Stmt Reference) (Stmt Unit) where
  unlabelled := Stmt.unlabelled
  labels stmt := stmt.references.map Prod.fst

instance : Labelled (List (Stmt Reference)) (List (Stmt Unit)) where
  unlabelled := Stmt.allUnlabelled
  labels stmts := (Stmt.allReferences stmts).map Prod.fst

instance : Labelled (FunctionDecl Reference) (FunctionDecl Unit) where
  unlabelled := Stmt.functionUnlabelled
  labels declaration := (Stmt.functionReferences declaration).map Prod.fst

instance : Labelled (List (FunctionDecl Reference)) (List (FunctionDecl Unit)) where
  unlabelled := Stmt.methodsUnlabelled
  labels methods := (Stmt.methodReferences methods).map Prod.fst

variable {α β γ δ : Type} [Labelled β α] [Labelled δ γ] {n : Nat}

instance : Labelled (Option β) (Option α) where
  unlabelled := Option.map unlabelled
  labels found := (found.map labels).getD []

instance : Labelled (β × Token) (α × Token) where
  unlabelled given := (unlabelled given.1, given.2)
  labels given := labels given.1

instance : Labelled (β × List Notice) (α × List Notice) where
  unlabelled given := (unlabelled given.1, given.2)
  labels given := labels given.1

instance : Labelled (Clauses Reference) (Clauses Unit) where
  unlabelled clauses :=
    ⟨unlabelled clauses.initializer, unlabelled clauses.condition, unlabelled clauses.increment⟩
  labels clauses :=
    labels clauses.initializer ++ labels clauses.condition ++ labels clauses.increment

instance : Labelled (LabelledProgram Reference) Program where
  unlabelled program := ⟨unlabelled program.statements, program.errors⟩
  labels program := labels program.statements

instance : Labelled (Reading β n) (Reading α n) where
  unlabelled := Reading.map unlabelled
  labels
    | .done value _ _ _ => labels value
    | .stuck .. => []

instance : Labelled (Declared Reference n) (Declared Unit n) where
  unlabelled declared :=
    ⟨unlabelled declared.statement, declared.notices, declared.rest, declared.shorter⟩
  labels declared := labels declared.statement

/-! ## Actions that draw labels -/

/-- From any number on, an action comes to the same as another one up to labels, and the
labels are among given ones and those that it draws. -/
structure Numbers (given : List Nat) (action : StateM Reference β) (plain : α) : Prop where
  agrees : ∀ next, unlabelled (action.run next).1 = plain
  draws : ∀ next, Draws given next (action.run next).2 (labels (action.run next).1)

namespace Numbers

variable {given : List Nat} {action : StateM Reference β} {plain : α}

/-- Nothing is drawn for what is there. -/
protected theorem pure {value : β} (among : (labels value).Subperm given) :
    Numbers given (pure value) (unlabelled value) where
  agrees _ := rfl
  draws next := (Draws.none given next).mono among

/-- One label is drawn. -/
theorem label : Numbers [] (Labelling.label : StateM Reference Reference) () where
  agrees _ := rfl
  draws next := .one [] next

/-- One action after the other, with what was there before. -/
theorem bind (others : List Nat) (numbers : Numbers given action plain)
    {further : β → StateM Reference δ} (further' : α → γ)
    (behind : ∀ value, Numbers (others ++ labels value) (further value)
      (further' (unlabelled value))) :
    Numbers (others ++ given) (action >>= further) (further' plain) where
  agrees next := by
    rw [← numbers.agrees next]
    exact (behind (action.run next).1).agrees (action.run next).2
  draws next := ((numbers.draws next).beside others).trans
    ((behind (action.run next).1).draws (action.run next).2)

/-- What is made of what an action comes to, and of what was there before. -/
protected theorem map (others : List Nat) (numbers : Numbers given action plain) {f : β → δ}
    {g : α → γ} (agrees : ∀ value, unlabelled (f value) = g (unlabelled value))
    (among : ∀ value, (labels (f value)).Subperm (others ++ labels value)) :
    Numbers (others ++ given) (f <$> action) (g plain) where
  agrees next := by
    rw [← numbers.agrees next]
    exact agrees (action.run next).1
  draws next := ((numbers.draws next).beside others).mono (among (action.run next).1)

end Numbers

/-! ## Putting readers together -/

/-- A reader numbers what another one reads without labels. -/
def Reader.Numbers (given : List Nat) (reader : Reader (StateM Reference) β n)
    (plain : Reader Id α n) : Prop :=
  Lox.Numbers (β := Reading β n) (α := Reading α n) given reader plain

namespace Reader.Numbers

variable {given : List Nat} {reader : Reader (StateM Reference) β n} {plain : Reader Id α n}

protected theorem still (value : β) (tokens : List Token) :
    Numbers (labels value) (.still value tokens) (.still (unlabelled value) tokens) :=
  .pure (β := Reading β _) (.refl _)

protected theorem stopped (fault : SyntaxFault) (tokens : List Token) :
    Numbers given (.stopped fault tokens : Reader (StateM Reference) β tokens.length)
      (.stopped fault tokens) :=
  .pure (β := Reading β _) List.nil_subperm

protected theorem behind (numbers : Numbers given reader plain) :
    Numbers given reader.behind plain.behind := by
  refine Lox.Numbers.map [] numbers (fun reading => ?_) fun reading => ?_
  · cases reading <;> rfl
  · cases reading <;> exact .refl _

protected theorem noticing (earlier : List Notice) (numbers : Numbers given reader plain) :
    Numbers given (reader.noticing earlier) (plain.noticing earlier) := by
  refine Lox.Numbers.map [] numbers (fun reading => ?_) fun reading => ?_
  · cases reading <;> rfl
  · cases reading <;> exact .refl _

/-- A tree is made of given ones and what is read. -/
protected theorem map {f : β → δ} {g : α → γ} (numbers : Numbers [] reader plain)
    (agrees : ∀ value, unlabelled (f value) = g (unlabelled value))
    (among : ∀ value, (labels (f value)).Subperm (given ++ labels value)) :
    Numbers given (reader.map f) (plain.map g) := by
  rw [← List.append_nil given]
  refine Lox.Numbers.map given numbers (fun reading => ?_) fun reading => ?_
  · cases reading with
    | done value notices rest shorter =>
        exact congrArg (Reading.done · notices rest shorter) (agrees value)
    | stuck notices fault rest bound => rfl
  · cases reading with
    | done value notices rest shorter => exact among value
    | stuck notices fault rest bound => exact List.nil_subperm

section AndThen

variable {further : β → (rest : List Token) → rest.length < n →
    Reader (StateM Reference) δ (rest.length + 1)}
  {further' : α → (rest : List Token) → rest.length < n → Reader Id γ (rest.length + 1)}

/-- What is read behind a phrase is made of given trees and of the phrase. -/
protected theorem andPerhaps (numbers : Numbers [] reader plain)
    (behind : ∀ value rest shorter, Numbers (given ++ labels value) (further value rest shorter)
      (further' (unlabelled value) rest shorter)) :
    Numbers given (reader.andPerhaps further) (plain.andPerhaps further') := by
  rw [← List.append_nil given]
  refine Lox.Numbers.bind (β := Reading β n) (δ := Reading δ n) given numbers
    (fun found : Reader Id α n => found.andPerhaps further') fun reading => ?_
  cases reading with
  | done value notices rest shorter =>
      show Lox.Numbers (β := Reading δ n) ([] ++ (given ++ labels value))
        (Reading.following notices shorter <$> (further value rest shorter : StateM Reference _))
        (Reading.following notices shorter (further' (unlabelled value) rest shorter))
      refine Lox.Numbers.map [] (behind value rest shorter) (fun second => ?_) fun second => ?_
      · cases second <;> rfl
      · cases second <;> exact .refl _
  | stuck notices fault rest bound => exact .pure (β := Reading δ n) List.nil_subperm

/-- What is read behind a phrase and takes tokens. -/
protected theorem andThen (numbers : Numbers [] reader plain)
    {further : β → (rest : List Token) → rest.length < n →
      Reader (StateM Reference) δ rest.length}
    {further' : α → (rest : List Token) → rest.length < n → Reader Id γ rest.length}
    (behind : ∀ value rest shorter, Numbers (given ++ labels value) (further value rest shorter)
      (further' (unlabelled value) rest shorter)) :
    Numbers given (reader.andThen further) (plain.andThen further') :=
  numbers.andPerhaps fun value rest shorter => (behind value rest shorter).behind

end AndThen

/-- What is read after an action. -/
protected theorem acting {action : StateM Reference δ} {plain : γ}
    (numbers : Lox.Numbers given action plain) {further : δ → Reader (StateM Reference) β n}
    {further' : γ → Reader Id α n}
    (behind : ∀ value, Numbers (labels value) (further value) (further' (unlabelled value))) :
    Numbers given (.acting action further) (.acting plain further') :=
  Lox.Numbers.bind (β := δ) (δ := Reading β n) [] numbers further' behind

end Reader.Numbers

section Expect

variable {given : List Nat} {wanted : Token → Bool} {fault : SyntaxFault} {tokens : List Token}

/-- A token has no labels. -/
theorem numbers_expect : Reader.Numbers [] (expect wanted fault tokens)
    (expect wanted fault tokens) := by
  cases tokens with
  | nil => exact .stopped fault []
  | cons token rest =>
      simp only [expect]
      split
      · exact .still token rest
      · exact .stopped fault (token :: rest)

namespace Reader.Numbers

/-- A token stands behind the trees of which a phrase is made. -/
theorem closed {f : Token → β} {g : Token → α} (agrees : ∀ token, unlabelled (f token) = g token)
    (among : ∀ token, (labels (f token)).Subperm given) :
    Numbers given ((expect wanted fault tokens).map f) ((expect wanted fault tokens).map g) :=
  numbers_expect.map agrees fun token => by
    rw [show labels token = [] from rfl, List.append_nil]
    exact among token

/-- A token stands in front of what is read. -/
theorem afterPerhaps {further : Token → (rest : List Token) → rest.length < tokens.length →
      Reader (StateM Reference) β (rest.length + 1)}
    {further' : Token → (rest : List Token) → rest.length < tokens.length →
      Reader Id α (rest.length + 1)}
    (behind : ∀ token rest shorter, Numbers given (further token rest shorter)
      (further' token rest shorter)) :
    Numbers given ((expect wanted fault tokens).andPerhaps further)
      ((expect wanted fault tokens).andPerhaps further') :=
  numbers_expect.andPerhaps fun token rest shorter => by
    rw [show labels token = [] from rfl, List.append_nil]
    exact behind token rest shorter

/-- A token stands in front of what is read and takes tokens. -/
theorem after {further : Token → (rest : List Token) → rest.length < tokens.length →
      Reader (StateM Reference) β rest.length}
    {further' : Token → (rest : List Token) → rest.length < tokens.length →
      Reader Id α rest.length}
    (behind : ∀ token rest shorter, Numbers given (further token rest shorter)
      (further' token rest shorter)) :
    Numbers given ((expect wanted fault tokens).andThen further)
      ((expect wanted fault tokens).andThen further') :=
  afterPerhaps fun token rest shorter => (behind token rest shorter).behind

end Reader.Numbers

end Expect

end Lox
