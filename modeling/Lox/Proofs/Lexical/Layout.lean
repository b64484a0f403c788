/-
# Cells and frames

A layout says which name of which frame each cell stands for.  Where names are
in force, it lays them out along the frames that are open there
(`Lexical.Matches`): the names of one scope stand in front of those of the next
one, and each has a cell for the frame of its scope.  So the nearest entry of a
name has the cell of the frame at the distance of the name
(`Lexical.Matches.lookup`).

A frame may bind names that are declared behind the place; these have cells too,
but they are not in force there.
-/

import Lox.Proofs.Lexical
import Lox.Proofs.Execution
import Lox.Proofs.Visits

namespace Lox.Lexical

/-- Which name of which frame each cell stands for, in the order of the cells. -/
abbrev Layout := List (FrameId × String)

/-- The names in force are those of the scopes, one scope after the other, and
their cells stand for the frames from here outwards. -/
def Matches (layout : Layout) (frames : FrameStore Lox.Value) :
    FrameId → List Scope → Env → Prop
  | id, [], env => id = Machine.globals ∧ env = []
  | id, scope :: outer, env => ∃ enclosing inner rest, frames.enclosing? id = some enclosing ∧
    env = inner ++ rest ∧
    (∀ name : String, scope.contains name = true ↔ name ∈ inner.map Prod.fst) ∧
    (∀ entry ∈ inner, layout[entry.2]? = some (id, entry.1)) ∧
    Matches layout frames enclosing outer rest

theorem getElem?_of_prefix {layout later : Layout} (grown : layout <+: later) {cell : Nat}
    {place : FrameId × String} (found : layout[cell]? = some place) :
    later[cell]? = some place := by
  obtain ⟨more, rfl⟩ := grown
  rw [List.getElem?_append_left (List.getElem?_eq_some_iff.1 found).1, found]

namespace Matches

variable {layout later : Layout} {frames frames' : FrameStore Lox.Value} {id : FrameId}
  {scope : Scope} {scopes : List Scope} {env : Env} {name : String} {cell : CellId}

theorem mono {isOpen : Option FrameId} (fits : Matches layout frames id scopes env)
    (grown : layout <+: later) (keeps : FrameStore.Keeps isOpen frames frames') :
    Matches later frames' id scopes env := by
  induction scopes generalizing id env with
  | nil => exact fits
  | cons scope outer ih =>
      obtain ⟨enclosing, inner, rest, enclosed, split, names, cells, more⟩ := fits
      refine ⟨enclosing, inner, rest, ?_, split, names, fun entry member => ?_, ih more⟩
      · rw [keeps.enclosing id (FrameStore.lt_nextId_of_enclosing? enclosed), enclosed]
      · exact getElem?_of_prefix grown (cells entry member)

theorem lt_nextId (fits : Matches layout frames id scopes env) (started : 0 < frames.nextId) :
    id < frames.nextId := by
  cases scopes with
  | nil => exact fits.1 ▸ started
  | cons scope outer =>
      obtain ⟨enclosing, _, _, enclosed, _⟩ := fits
      exact FrameStore.lt_nextId_of_enclosing? enclosed

theorem ne_globals (fits : Matches layout frames id (scope :: scopes) env) :
    id ≠ Machine.globals := by
  obtain ⟨enclosing, _, _, enclosed, _⟩ := fits
  exact Nat.ne_zero_of_lt (FrameStore.lt_of_enclosing? enclosed)

/-- A new frame with the names of a new scope. -/
theorem push (fits : Matches layout frames id scopes env) (started : 0 < frames.nextId)
    (grown : layout <+: later) (bindings : Bindings Lox.Value) {inner : Env}
    (names : ∀ name : String, scope.contains name = true ↔ name ∈ inner.map Prod.fst)
    (cells : ∀ entry ∈ inner, later[entry.2]? = some (frames.nextId, entry.1)) :
    Matches later (frames.push (some id) bindings) frames.nextId (scope :: scopes)
      (inner ++ env) := by
  refine ⟨id, inner, env, ?_, rfl, names, cells,
    fits.mono grown (FrameStore.Keeps.push frames (some id) bindings)⟩
  rw [FrameStore.enclosing?_push, if_pos rfl, Option.filter_some,
    if_pos (by simpa using fits.lt_nextId started)]

/-- A declaration in the innermost scope puts its name in front of all others. -/
theorem declare (fits : Matches layout frames id (scope :: scopes) env)
    (found : layout[cell]? = some (id, name)) :
    Matches layout frames id (Analysis.declared name (scope :: scopes)) ((name, cell) :: env) := by
  obtain ⟨enclosing, inner, rest, enclosed, rfl, names, cells, more⟩ := fits
  refine ⟨enclosing, (name, cell) :: inner, rest, enclosed, rfl, fun key => ?_, ?_, more⟩
  · rw [Scope.contains_insert, List.map_cons, List.mem_cons, names key]
  · exact List.forall_mem_cons.2 ⟨found, cells⟩

/-- A name that is declared stays where it is when it is initialized. -/
theorem define (fits : Matches layout frames id (Analysis.declared name scopes) env) :
    Matches layout frames id (Analysis.defined name (Analysis.declared name scopes)) env := by
  cases scopes with
  | nil => exact fits
  | cons scope outer =>
      obtain ⟨enclosing, inner, rest, enclosed, split, names, others⟩ := fits
      refine ⟨enclosing, inner, rest, enclosed, split, fun key => ?_, others⟩
      rw [Scope.contains_insert, ← names key, Scope.contains_insert]
      exact ⟨fun either => either.elim .inl fun held => held, .inr⟩

/-- The nearest entry of a name has the cell of the frame at its distance.  A
name that no scope declares has no entry. -/
theorem lookup (fits : Matches layout frames id scopes env) (name : String) :
    match scopes.findIdx? fun scope => scope.contains name with
    | some distance => ∃ frame cell, frames.ancestor? id distance = some frame ∧
        env.lookup name = some cell ∧ layout[cell]? = some (frame, name)
    | none => env.lookup name = none := by
  induction scopes generalizing id env with
  | nil =>
      rw [fits.2]
      rfl
  | cons scope outer ih =>
      obtain ⟨enclosing, inner, rest, enclosed, rfl, names, cells, more⟩ := fits
      rw [List.findIdx?_cons, List.lookup_append]
      by_cases holds : scope.contains name = true
      · rw [if_pos holds]
        obtain ⟨⟨key, cell⟩, member, rfl⟩ := List.mem_map.1 ((names name).1 holds)
        have listed : (inner.lookup key).isSome = true :=
          List.lookup_isSome_iff.2 ⟨(key, cell), member, beq_self_eq_true key⟩
        obtain ⟨nearest, found⟩ := Option.isSome_iff_exists.1 listed
        obtain ⟨before, behind, same, _⟩ := List.lookup_eq_some_iff.1 found
        refine ⟨id, nearest, rfl, by rw [found]; rfl, cells (key, nearest) ?_⟩
        rw [same]
        exact List.mem_append_right _ List.mem_cons_self
      · rw [if_neg holds]
        have absent : inner.lookup name = none := by
          rw [List.lookup_eq_none_iff]
          intro entry member
          have different : name ≠ entry.1 := fun same =>
            holds ((names name).2 (same ▸ List.mem_map_of_mem member))
          simpa using different
        rw [absent, Option.none_or]
        have further := ih more
        cases found : outer.findIdx? fun scope => scope.contains name with
        | none =>
            rw [found] at further
            exact further
        | some distance =>
            rw [found] at further
            obtain ⟨frame, cell, reached, others⟩ := further
            refine ⟨frame, cell, ?_, others⟩
            rw [FrameStore.ancestor?, enclosed]
            exact reached

end Matches

end Lox.Lexical
