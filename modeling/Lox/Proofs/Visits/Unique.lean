/-
# The walk arrives only once

A part that holds a reference stands at one place of a text, because no two
references of the text have the same label.  So the walk arrives at it in one
state only (`Text.Visits.unique`).  A part without references may stand at
several places.
-/

import Mathlib.Logic.Relation
import Lox.Proofs.Visits

namespace Lox

namespace Analysis

variable {analysis first second : Analysis} {part left right : Part}

theorem Calls.labels (calls : analysis.Calls part first left) : left.labels ⊆ part.labels := by
  obtain ⟨before, behind, _, _, perm⟩ := calls.adds
  apply List.map_subset
  exact fun _ member => perm.mem_iff.1 (List.mem_append_right _ (List.mem_append_left _ member))

/-- Two different calls of one walk go through different references. -/
theorem Calls.apart (calls : analysis.Calls part first left)
    (other : analysis.Calls part second right)
    (different : part.labels.Nodup) {reference : Reference} (here : reference ∈ left.labels)
    (there : reference ∈ right.labels) : first = second ∧ left = right := by
  have apart {front back : List (Reference × Token)}
      (nodup : ((front ++ back).map Prod.fst).Nodup) (inFront : reference ∈ front.map Prod.fst)
      (inBack : reference ∈ back.map Prod.fst) : False := by
    rw [List.map_append, List.nodup_append] at nodup
    exact nodup.2.2 reference inFront reference inBack rfl
  have front {front back : List (Reference × Token)}
      (nodup : ((front ++ back).map Prod.fst).Nodup) : (front.map Prod.fst).Nodup := by
    rw [List.map_append] at nodup
    exact (List.nodup_append.1 nodup).1
  have inFront {front back : List (Reference × Token)} : front ⊆ front ++ back :=
    List.subset_append_left _ _
  have inBack {front back : List (Reference × Token)} : back ⊆ front ++ back :=
    List.subset_append_right _ _
  cases calls with
  | left => cases other with
    | left => exact ⟨rfl, rfl⟩
    | right => exact (apart different here there).elim
  | right => cases other with
    | left => exact (apart different there here).elim
    | right => exact ⟨rfl, rfl⟩
  | first => cases other with
    | first => exact ⟨rfl, rfl⟩
    | second => exact (apart different here there).elim
  | second => cases other with
    | first => exact (apart different there here).elim
    | second => exact ⟨rfl, rfl⟩
  | callee => cases other with
    | callee => exact ⟨rfl, rfl⟩
    | arguments => exact (apart different here there).elim
  | arguments => cases other with
    | callee => exact (apart different there here).elim
    | arguments => exact ⟨rfl, rfl⟩
  | stored => cases other with
    | stored => exact ⟨rfl, rfl⟩
    | owner => exact (apart different there here).elim
  | owner => cases other with
    | stored => exact (apart different here there).elim
    | owner => exact ⟨rfl, rfl⟩
  | firstExpr => cases other with
    | firstExpr => exact ⟨rfl, rfl⟩
    | otherExprs => exact (apart different here there).elim
  | otherExprs => cases other with
    | firstExpr => exact (apart different there here).elim
    | otherExprs => exact ⟨rfl, rfl⟩
  | @condition _ _ onFalse => cases onFalse with
    | none => cases other with
      | condition => exact ⟨rfl, rfl⟩
      | onTrue => exact (apart different here there).elim
    | some => cases other with
      | condition => exact ⟨rfl, rfl⟩
      | onTrue => exact (apart (front different) here there).elim
      | onFalse => exact (apart different (List.map_subset _ inFront here) there).elim
  | @onTrue _ _ onFalse => cases onFalse with
    | none => cases other with
      | condition => exact (apart different there here).elim
      | onTrue => exact ⟨rfl, rfl⟩
    | some => cases other with
      | condition => exact (apart (front different) there here).elim
      | onTrue => exact ⟨rfl, rfl⟩
      | onFalse => exact (apart different (List.map_subset _ inBack here) there).elim
  | onFalse => cases other with
    | condition => exact (apart different (List.map_subset _ inFront there) here).elim
    | onTrue => exact (apart different (List.map_subset _ inBack there) here).elim
    | onFalse => exact ⟨rfl, rfl⟩
  | guard => cases other with
    | guard => exact ⟨rfl, rfl⟩
    | round => exact (apart different here there).elim
  | round => cases other with
    | guard => exact (apart different there here).elim
    | round => exact ⟨rfl, rfl⟩
  | firstMethod => cases other with
    | firstMethod => exact ⟨rfl, rfl⟩
    | otherMethods => exact (apart different here there).elim
  | otherMethods => cases other with
    | firstMethod => exact (apart different there here).elim
    | otherMethods => exact ⟨rfl, rfl⟩
  | firstStmt => cases other with
    | firstStmt => exact ⟨rfl, rfl⟩
    | otherStmts => exact (apart different here there).elim
  | otherStmts => cases other with
    | firstStmt => exact (apart different there here).elim
    | otherStmts => exact ⟨rfl, rfl⟩
  | _ =>
      cases other
      exact ⟨rfl, rfl⟩

end Analysis

/-- The size of the tree that a part is. -/
noncomputable def Part.size : Part → Nat
  | .expr value => sizeOf value
  | .exprs values => sizeOf values
  | .stmt statement => sizeOf statement
  | .function _ declaration => sizeOf declaration
  | .methods members => sizeOf members
  | .stmts statements => sizeOf statements

theorem Analysis.Calls.size_lt {analysis inner : Analysis} {part piece : Part}
    (calls : analysis.Calls part inner piece) : piece.size < part.size := by
  cases calls <;> simp +arith [Part.size]

/-- From one state and part, the walk comes to another state and part. -/
def Analysis.Leads : Analysis × Part → Analysis × Part → Prop :=
  Relation.ReflTransGen fun outer inner => outer.1.Calls outer.2 inner.1 inner.2

namespace Analysis.Leads

variable {outer inner : Analysis × Part}

theorem labels (leads : Leads outer inner) : inner.2.labels ⊆ outer.2.labels := by
  induction leads with
  | refl => exact List.Subset.refl _
  | tail _ calls ih => exact List.Subset.trans calls.labels ih

theorem size_le (leads : Leads outer inner) : inner.2.size ≤ outer.2.size := by
  induction leads with
  | refl => exact Nat.le_refl _
  | tail _ calls ih => exact Nat.le_of_lt (Nat.lt_of_lt_of_le calls.size_lt ih)

/-- The walk does not come to the same part again. -/
theorem unique {analysis again : Analysis} {part : Part}
    (leads : Leads (analysis, part) (again, part)) : analysis = again := by
  rcases leads.cases_head with same | ⟨between, calls, more⟩
  · exact congrArg Prod.fst same
  · have size := Nat.lt_of_le_of_lt (size_le more) calls.size_lt
    exact absurd size (Nat.lt_irrefl _)

end Analysis.Leads

namespace Text

variable {text : Text} {first second analysis : Analysis} {left right part : Part}

theorem Visits.leads (visited : text.Visits analysis part) :
    Analysis.Leads (text.start, .stmts text.program) (analysis, part) := by
  induction visited with
  | program => exact .refl
  | call _ calls ih => exact ih.tail calls

/-- Of two places that hold the same reference, one is inside the other. -/
theorem Visits.nested (numbered : text.Numbered) (visited : text.Visits first left)
    (other : text.Visits second right) {reference : Reference} (here : reference ∈ left.labels)
    (there : reference ∈ right.labels) :
    Analysis.Leads (first, left) (second, right) ∨
      Analysis.Leads (second, right) (first, left) := by
  induction visited with
  | program => exact .inl other.leads
  | @call outer inner part piece visited calls ih =>
      rcases ih (calls.labels here) with inside | outside
      · rcases inside.cases_head with same | ⟨⟨between, step⟩, calls', more⟩
        · cases same
          exact .inr (.single calls)
        · have different := (visited.separate numbered).different
          obtain ⟨rfl, rfl⟩ := calls.apart calls' different here (Analysis.Leads.labels more there)
          exact .inl more
      · exact .inr (outside.tail calls)

/-- The walk through a numbered text arrives at a part that holds a reference in one
state only. -/
theorem Visits.unique (numbered : text.Numbered) (visited : text.Visits first part)
    (again : text.Visits second part) (holds : part.references ≠ []) : first = second := by
  obtain ⟨⟨reference, name⟩, among⟩ := List.exists_mem_of_ne_nil _ holds
  have member : reference ∈ part.labels := List.mem_map_of_mem among
  rcases visited.nested numbered again member member with leads | leads
  · exact leads.unique
  · exact leads.unique.symm

end Text

end Lox
