/-
# Reading without labels

The functions that read are written for readers that may act while they read, because
references get their labels then.  A reader that does not act is what it reads.  This
module says what such readers come to that are put together of others, so that the
reading of a program can be followed without any thought of labels.
-/

import Lox.Reading.Program

namespace Lox

/-! ## Readers -/

namespace Reader

variable {α β : Type} {n : Nat}

/-- The phrase is read and `rest` follows it. -/
@[match_pattern]
def done (value : α) (notices : List Notice) (rest : List Token) (shorter : rest.length < n) :
    Reader Id α n :=
  Reading.done value notices rest shorter

/-- A fault is noticed at the first token of `rest`. -/
@[match_pattern]
def stuck (notices : List Notice) (fault : SyntaxFault) (rest : List Token)
    (bound : rest.length ≤ n) : Reader Id α n :=
  Reading.stuck notices fault rest bound

/-- A reader that does not act reads its phrase or is stopped. -/
@[elab_as_elim, cases_eliminator]
theorem doneOrStuck {motive : Reader Id α n → Prop} (reader : Reader Id α n)
    (done : ∀ value notices rest shorter, motive (.done value notices rest shorter))
    (stuck : ∀ notices fault rest bound, motive (.stuck notices fault rest bound)) :
    motive reader :=
  match reader with
  | .done value notices rest shorter => done value notices rest shorter
  | .stuck notices fault rest bound => stuck notices fault rest bound

variable {value : α} {notices : List Notice} {fault : SyntaxFault} {rest : List Token}
  {shorter : rest.length < n} {bound : rest.length ≤ n}

theorem still_eq (value : α) (tokens : List Token) :
    still value tokens = done value [] tokens (Nat.lt_succ_self _) :=
  rfl

theorem stopped_eq (fault : SyntaxFault) (tokens : List Token) :
    (stopped fault tokens : Reader Id α tokens.length) =
      stuck [] fault tokens (Nat.le_refl _) :=
  rfl

@[simp]
theorem behind_done : (done value notices rest shorter).behind =
    done value notices rest (Nat.lt_succ_of_lt shorter) :=
  rfl

@[simp]
theorem behind_stuck : (stuck notices fault rest bound : Reader Id α n).behind =
    stuck notices fault rest (Nat.le_succ_of_le bound) :=
  rfl

@[simp]
theorem map_done (f : α → β) : (done value notices rest shorter).map f =
    done (f value) notices rest shorter :=
  rfl

@[simp]
theorem map_stuck (f : α → β) : (stuck notices fault rest bound).map f =
    stuck notices fault rest bound :=
  rfl

@[simp]
theorem noticing_done (earlier : List Notice) :
    (done value notices rest shorter).noticing earlier =
      done value (earlier ++ notices) rest shorter :=
  rfl

@[simp]
theorem noticing_stuck (earlier : List Notice) :
    (stuck notices fault rest bound : Reader Id α n).noticing earlier =
      stuck (earlier ++ notices) fault rest bound :=
  rfl

section

variable {next : α → (rest : List Token) → rest.length < n → Reader Id β (rest.length + 1)}

/-- What is read behind a phrase that was read. -/
theorem andPerhaps_of_done {found : β} {more : List Notice} {left : List Token}
    {shorter' : left.length < rest.length + 1}
    (second : next value rest shorter = done found more left shorter') :
    (done value notices rest shorter).andPerhaps next =
      done found (notices ++ more) left (Nat.lt_of_lt_of_le shorter' shorter) := by
  show Reading.following notices shorter (next value rest shorter) = _
  rw [second]
  rfl

/-- What stops behind a phrase that was read. -/
theorem andPerhaps_of_stuck {more : List Notice} {left : List Token}
    {bound' : left.length ≤ rest.length + 1}
    (second : next value rest shorter = stuck more fault left bound') :
    (done value notices rest shorter).andPerhaps next =
      stuck (notices ++ more) fault left (Nat.le_trans bound' shorter) := by
  show Reading.following notices shorter (next value rest shorter) = _
  rw [second]
  rfl

@[simp]
theorem andPerhaps_stuck : (stuck notices fault rest bound).andPerhaps next =
    stuck notices fault rest bound :=
  rfl

end

@[simp]
theorem acting_eq (action : Id α) (next : α → Reader Id β n) : acting action next = next action :=
  rfl

end Reader

namespace Declarer

variable {n : Nat}

/-- The statement that is read without labels, if one is. -/
def statement (declarer : Declarer Id Unit n) : Option (Stmt Unit) :=
  Declared.statement declarer

/-- The faults that are noticed. -/
def notices (declarer : Declarer Id Unit n) : List Notice :=
  Declared.notices declarer

/-- The tokens from which to go on. -/
def rest (declarer : Declarer Id Unit n) : List Token :=
  Declared.rest declarer

theorem shorter (declarer : Declarer Id Unit n) : declarer.rest.length < n :=
  Declared.shorter declarer

section OfReader

variable {stmt : Stmt Unit} {noticed : List Notice} {fault : SyntaxFault} {left : List Token}

@[simp]
theorem statement_ofReader_done {shorter : left.length < n + 1} :
    (ofReader (.done stmt noticed left shorter)).statement = some stmt :=
  rfl

@[simp]
theorem notices_ofReader_done {shorter : left.length < n + 1} :
    (ofReader (.done stmt noticed left shorter)).notices = noticed :=
  rfl

@[simp]
theorem rest_ofReader_done {shorter : left.length < n + 1} :
    (ofReader (.done stmt noticed left shorter)).rest = left :=
  rfl

@[simp]
theorem statement_ofReader_stuck {bound : left.length ≤ n + 1} :
    (ofReader (.stuck noticed fault left bound)).statement = none :=
  rfl

@[simp]
theorem notices_ofReader_stuck {bound : left.length ≤ n + 1} :
    (ofReader (.stuck noticed fault left bound)).notices = noticed ++ [⟨fault, left.head?⟩] :=
  rfl

@[simp]
theorem rest_ofReader_stuck {bound : left.length ≤ n + 1} :
    (ofReader (.stuck noticed fault left bound)).rest = resume left :=
  rfl

end OfReader

section AndThen

variable {declarer : Declarer Id Unit n}
  {next : (rest : List Token) → rest.length < n → Reader Id (List (Stmt Unit)) rest.length}
  {noticed : List Notice} {left : List Token}

/-- What is read behind a declaration. -/
theorem andThen_of_done {statements : List (Stmt Unit)}
    {shorter : left.length < declarer.rest.length}
    (second : next declarer.rest declarer.shorter = .done statements noticed left shorter) :
    declarer.andThen next =
      .done (declarer.statement.toList ++ statements) (declarer.notices ++ noticed) left
        (Nat.lt_trans shorter declarer.shorter) := by
  show Declared.followedBy declarer (next declarer.rest declarer.shorter) = _
  rw [second]
  rfl

/-- What stops behind a declaration. -/
theorem andThen_of_stuck {fault : SyntaxFault} {bound : left.length ≤ declarer.rest.length}
    (second : next declarer.rest declarer.shorter = .stuck noticed fault left bound) :
    declarer.andThen next =
      .stuck (declarer.notices ++ noticed) fault left
        (Nat.le_trans bound (Nat.le_of_lt declarer.shorter)) := by
  show Declared.followedBy declarer (next declarer.rest declarer.shorter) = _
  rw [second]
  rfl

end AndThen

end Declarer

/-- Without labels a program is the declaration at its front and the program behind
it. -/
theorem declarations_cons (trailing : Bool) (first : Token) (rest : List Token) :
    declarations trailing (first :: rest) =
      ((declaration trailing first rest).statement.toList ++
          (declarations trailing (declaration trailing first rest).rest).1,
        (declaration trailing first rest).notices ++
          (declarations trailing (declaration trailing first rest).rest).2) := by
  unfold declarations
  rw [allDeclarations]
  rfl

theorem declarations_nil (trailing : Bool) : declarations trailing [] = ([], []) := by
  unfold declarations
  rw [allDeclarations]
  rfl

theorem Program.ofTokens_eq (trailing : Bool) (tokens : List Token) :
    ofTokens trailing tokens =
      ⟨(declarations trailing (beforeEnd tokens)).1,
        (declarations trailing (beforeEnd tokens)).2.map
          (Notice.error (endLine tokens))⟩ :=
  rfl

end Lox
