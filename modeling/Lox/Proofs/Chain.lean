/-
# The chain of a frame

A frame, the frame around it, and so on outwards: that is its *chain*.  The search for a
name is a search of the chain, and the access at a distance takes the place of the chain
with this number.  So the two agree where the distance is that of the nearest frame that
binds the name, and each writes one slot and no other.

Chains meet: a frame is in the chains of all frames inside it.  What is written through
one of them is seen from all of those, and exactly from those, whose search ends in the
same frame (`FrameStore.Writes.get?`).
-/

import Lox.Proofs.Execution

namespace Lox

namespace FrameStore

variable {α : Type}

/-! ## Chains -/

/-- A frame and the frames around it, from the inside outwards. -/
def chain (store : FrameStore α) (id : FrameId) : List FrameId :=
  id ::
    match _enclosed : store.enclosing? id with
    | some outer => store.chain outer
    | none => []
termination_by id
decreasing_by exact lt_of_enclosing? _enclosed

/-- What holds of the outermost frames, and of a frame if it holds of the one around it,
holds of all frames. -/
@[elab_as_elim]
theorem outwards (store : FrameStore α) {motive : FrameId → Prop}
    (outermost : ∀ id, store.enclosing? id = none → motive id)
    (enclosed : ∀ id outer, store.enclosing? id = some outer → motive outer → motive id)
    (id : FrameId) : motive id := by
  induction id using Nat.strongRecOn with
  | ind id ih =>
      cases found : store.enclosing? id with
      | none => exact outermost id found
      | some outer => exact enclosed id outer found (ih outer (lt_of_enclosing? found))

variable {store : FrameStore α}

theorem chain_outermost {id : FrameId} (outermost : store.enclosing? id = none) :
    store.chain id = [id] := by
  rw [chain]
  split
  · next outer enclosed =>
      rw [outermost] at enclosed
      cases enclosed
  · rfl

theorem chain_enclosed {id outer : FrameId} (enclosed : store.enclosing? id = some outer) :
    store.chain id = id :: store.chain outer := by
  rw [chain]
  split
  · next other found =>
      rw [enclosed] at found
      cases found
      rfl
  · next outermost =>
      rw [enclosed] at outermost
      cases outermost

/-- Counting outwards takes a place of the chain. -/
theorem ancestor?_eq_getElem?_chain (id : FrameId) (distance : Nat) :
    store.ancestor? id distance = (store.chain id)[distance]? := by
  induction id using store.outwards generalizing distance with
  | outermost id none =>
      rw [chain_outermost none]
      cases distance with
      | zero => rfl
      | succ distance => simp [ancestor?, none]
  | enclosed id outer enclosed ih =>
      rw [chain_enclosed enclosed]
      cases distance with
      | zero => rfl
      | succ distance => simpa [ancestor?, enclosed] using ih distance

theorem binder?_of_binds {id : FrameId} {name : String} (here : store.binds id name = true) :
    store.binder? id name = some id := by
  rw [binder?, if_pos here]

theorem binder?_outermost {id : FrameId} {name : String} (here : store.binds id name = false)
    (outermost : store.enclosing? id = none) : store.binder? id name = none := by
  rw [binder?, if_neg (Bool.not_eq_true _ ▸ here)]
  split
  · next outer enclosed =>
      rw [outermost] at enclosed
      cases enclosed
  · rfl

theorem binder?_enclosed {id outer : FrameId} {name : String}
    (here : store.binds id name = false) (enclosed : store.enclosing? id = some outer) :
    store.binder? id name = store.binder? outer name := by
  rw [binder?, if_neg (Bool.not_eq_true _ ▸ here)]
  split
  · next other found =>
      rw [enclosed] at found
      cases found
      rfl
  · next outermost =>
      rw [enclosed] at outermost
      cases outermost

/-- The search for a name is a search of the chain. -/
theorem binder?_eq_find?_chain (id : FrameId) (name : String) :
    store.binder? id name = (store.chain id).find? (store.binds · name) := by
  induction id using store.outwards with
  | outermost id none =>
      rw [chain_outermost none, List.find?_cons]
      cases here : store.binds id name with
      | true => exact binder?_of_binds here
      | false => exact binder?_outermost here none
  | enclosed id outer enclosed ih =>
      rw [chain_enclosed enclosed, List.find?_cons]
      cases here : store.binds id name with
      | true => exact binder?_of_binds here
      | false => exact (binder?_enclosed here enclosed).trans ih

/-! ## The nearest frame that binds a name -/

/-- The frame at a distance binds a name, and no nearer one of the chain does. -/
structure IsNearest (store : FrameStore α) (id : FrameId) (name : String) (distance : Nat)
    (frame : FrameId) : Prop where
  reached : (store.chain id)[distance]? = some frame
  binds : store.binds frame name = true
  nearer : ∀ less < distance, ∀ other, (store.chain id)[less]? = some other →
    store.binds other name = false

theorem binder?_eq_some_iff {id frame : FrameId} {name : String} :
    store.binder? id name = some frame ↔ ∃ distance, store.IsNearest id name distance frame := by
  rw [binder?_eq_find?_chain, List.find?_eq_some_iff_getElem]
  constructor
  · rintro ⟨binds, distance, inside, reached, nearer⟩
    refine ⟨distance, List.getElem?_eq_some_iff.2 ⟨inside, reached⟩, binds,
      fun less before other found => ?_⟩
    obtain ⟨_, rfl⟩ := List.getElem?_eq_some_iff.1 found
    simpa using nearer less before
  · rintro ⟨distance, reached, binds, nearer⟩
    obtain ⟨inside, reached⟩ := List.getElem?_eq_some_iff.1 reached
    refine ⟨binds, distance, inside, reached, fun less before => ?_⟩
    simpa using nearer less before _ (List.getElem?_eq_getElem (Nat.lt_trans before inside))

/-- A search succeeds if and only if a frame of the chain binds the name. -/
theorem binder?_isSome_iff {id : FrameId} {name : String} :
    (store.binder? id name).isSome = true ↔
      ∃ frame ∈ store.chain id, store.binds frame name = true := by
  rw [binder?_eq_find?_chain, List.find?_isSome]

theorem IsNearest.binder? {id frame : FrameId} {name : String} {distance : Nat}
    (nearest : store.IsNearest id name distance frame) : store.binder? id name = some frame :=
  binder?_eq_some_iff.2 ⟨distance, nearest⟩

theorem IsNearest.binderAt? {id frame : FrameId} {name : String} {distance : Nat}
    (nearest : store.IsNearest id name distance frame) :
    store.binderAt? id distance name = some frame := by
  rw [FrameStore.binderAt?, ancestor?_eq_getElem?_chain, nearest.reached, Option.filter_some,
    if_pos nearest.binds]

/-- The access at a distance finds a frame if and only if the chain is long enough and its
frame at this place binds the name. -/
theorem binderAt?_eq_some_iff {id frame : FrameId} {name : String} {distance : Nat} :
    store.binderAt? id distance name = some frame ↔
      (store.chain id)[distance]? = some frame ∧ store.binds frame name = true := by
  rw [binderAt?, ancestor?_eq_getElem?_chain, Option.filter_eq_some_iff]

theorem binderAt?_isSome_iff {id : FrameId} {distance : Nat} {name : String} :
    (store.binderAt? id distance name).isSome = true ↔
      ∃ inside : distance < (store.chain id).length,
        store.binds (store.chain id)[distance] name = true := by
  constructor
  · intro found
    obtain ⟨frame, found⟩ := Option.isSome_iff_exists.1 found
    obtain ⟨reached, binds⟩ := binderAt?_eq_some_iff.1 found
    obtain ⟨inside, rfl⟩ := List.getElem?_eq_some_iff.1 reached
    exact ⟨inside, binds⟩
  · rintro ⟨inside, binds⟩
    exact Option.isSome_iff_exists.2
      ⟨_, binderAt?_eq_some_iff.2 ⟨List.getElem?_eq_getElem inside, binds⟩⟩

/-- A frame that was found has a value to read. -/
theorem isSome_bind_bound? {found : Option FrameId} {name : String}
    (slots : ∀ frame, found = some frame → store.binds frame name = true) :
    (found.bind fun frame => store.bound? frame name).isSome = found.isSome := by
  cases found with
  | none => rfl
  | some frame => exact slots frame rfl

/-- A value at a distance is one of a frame that is found there. -/
theorem getAt?_eq_bind_binderAt? (id : FrameId) (distance : Nat) (name : String) :
    store.getAt? id distance name =
      (store.binderAt? id distance name).bind fun frame => store.bound? frame name := by
  rw [getAt?, binderAt?]
  cases store.ancestor? id distance with
  | none => rfl
  | some frame =>
      rw [Option.bind_some, Option.filter_some]
      split
      · rfl
      · next free =>
          rw [FrameStore.binds, Option.not_isSome_iff_eq_none] at free
          exact free

/-- Counting outwards goes on where it stopped. -/
theorem ancestor?_add (id : FrameId) (first second : Nat) :
    store.ancestor? id (first + second) =
      (store.ancestor? id first).bind (store.ancestor? · second) := by
  induction first generalizing id with
  | zero => rw [Nat.zero_add, ancestor?, Option.bind_some]
  | succ first ih =>
      rw [Nat.succ_add, ancestor?, ancestor?]
      split
      · exact ih _
      · rfl

/-! ## Writing one slot -/

/-- One slot that was there has another value, and nothing else is different. -/
structure Writes (store : FrameStore α) (frame : FrameId) (name : String) (value : α)
    (later : FrameStore α) : Prop where
  slot : store.binds frame name = true
  bound? : ∀ other key, later.bound? other key =
    if other = frame ∧ key = name then some value else store.bound? other key
  enclosing? : ∀ id, later.enclosing? id = store.enclosing? id
  nextId : later.nextId = store.nextId

theorem writes_define {frame : FrameId} {name : String} (slot : store.binds frame name = true)
    (value : α) : store.Writes frame name value (store.define frame name value) where
  slot := slot
  bound? other key := bound?_define (lt_nextId_of_binds slot) other name key value
  enclosing? id := store.enclosing?_define frame id name value
  nextId := store.nextId_define frame name value

namespace Writes

variable {later : FrameStore α} {frame : FrameId} {name : String} {value : α}

theorem binds (writes : store.Writes frame name value later) (other : FrameId) (key : String) :
    later.binds other key = store.binds other key := by
  rw [FrameStore.binds, writes.bound?]
  split
  · next both => rw [both.1, both.2, writes.slot, Option.isSome_some]
  · rfl

theorem chain (writes : store.Writes frame name value later) (id : FrameId) :
    later.chain id = store.chain id := by
  induction id using store.outwards with
  | outermost id none =>
      rw [chain_outermost none, chain_outermost ((writes.enclosing? id).trans none)]
  | enclosed id outer enclosed ih =>
      rw [chain_enclosed enclosed, chain_enclosed ((writes.enclosing? id).trans enclosed), ih]

/-- All searches end where they ended before. -/
theorem binder? (writes : store.Writes frame name value later) (id : FrameId) (key : String) :
    later.binder? id key = store.binder? id key := by
  simp only [binder?_eq_find?_chain, writes.chain, writes.binds]

/-- What is written is found from the frames whose search ends in the same frame, and from
no others. -/
theorem get? (writes : store.Writes frame name value later) (id : FrameId) (key : String) :
    later.get? id key =
      if key = name ∧ store.binder? id name = some frame then some value
      else store.get? id key := by
  rw [FrameStore.get?, writes.binder?, FrameStore.get?]
  cases found : store.binder? id key with
  | none =>
      rw [Option.bind_none, if_neg]
      · rfl
      · rintro ⟨rfl, same⟩
        rw [found] at same
        cases same
  | some binder =>
      rw [Option.bind_some, Option.bind_some, writes.bound?]
      by_cases same : key = name
      · subst same
        simp only [and_true, true_and, found, Option.some.injEq]
      · rw [if_neg (same ·.2), if_neg (same ·.1)]

end Writes

/-! ## Stores that are built step by step -/

/-- What is done to a store. -/
inductive Change (α : Type)
  | new (enclosing : Option FrameId)
  | define (frame : FrameId) (name : String) (value : α)
  | assign (frame : FrameId) (name : String) (value : α)
  | assignAt (frame : FrameId) (distance : Nat) (name : String) (value : α)

/-- The store after a change.  A write that finds nothing leaves the store as it is. -/
def changed (store : FrameStore α) : Change α → FrameStore α
  | .new enclosing => store.push enclosing
  | .define frame name value => store.define frame name value
  | .assign frame name value => (store.assign? frame name value).getD store
  | .assignAt frame distance name value => (store.assignAt? frame distance name value).getD store

/-- The store that changes make of an empty one. -/
def built (changes : List (Change α)) : FrameStore α :=
  changes.foldl changed {}

/-- Writing a name that is bound adds no binding. -/
theorem binds_of_binds_written {found : Option FrameId} {frame : FrameId} {name key : String}
    {value : α} (slots : ∀ binder, found = some binder → store.binds binder name = true)
    (bound : ((found.map (store.define · name value)).getD store).binds frame key = true) :
    store.binds frame key = true := by
  cases found with
  | none => exact bound
  | some binder => rwa [Option.map_some, Option.getD_some,
      (writes_define (slots binder rfl) value).binds] at bound

/-- Only a definition adds a binding, and only its own. -/
theorem binds_of_binds_changed {change : Change α} {frame : FrameId} {name : String}
    (bound : (store.changed change).binds frame name = true) :
    store.binds frame name = true ∨ ∃ value, change = .define frame name value := by
  cases change with
  | new enclosing =>
      rw [changed, binds, bound?_push] at bound
      split at bound
      · cases bound
      · exact .inl bound
  | define other key value =>
      rw [changed] at bound
      have inside : frame < store.nextId := by simpa using lt_nextId_of_binds bound
      by_cases same : other = frame
      · subst same
        rcases (binds_define inside other key name value).1 bound with ⟨-, rfl⟩ | before
        · exact .inr ⟨value, rfl⟩
        · exact .inl before
      · exact .inl ((Keeps.define store key value).noOthers frame inside
          (fun equal => same (Option.some.inj equal)) name bound)
  | assign other key value =>
      exact .inl (binds_of_binds_written
        (fun binder found => binds_of_binder? found) bound)
  | assignAt other distance key value =>
      exact .inl (binds_of_binds_written
        (fun binder found => (binderAt?_eq_some_iff.1 found).2) bound)

/-- Every binding of a store that was built was defined. -/
theorem defined_of_binds_foldl {changes : List (Change α)} {frame : FrameId} {name : String}
    (bound : (changes.foldl changed store).binds frame name = true) :
    store.binds frame name = true ∨ ∃ value, .define frame name value ∈ changes := by
  induction changes generalizing store with
  | nil => exact .inl bound
  | cons change changes ih =>
      rcases ih bound with before | ⟨value, member⟩
      · rcases binds_of_binds_changed before with before | ⟨value, rfl⟩
        · exact .inl before
        · exact .inr ⟨value, List.mem_cons_self⟩
      · exact .inr ⟨value, List.mem_cons_of_mem _ member⟩

/-! ## Search and access -/

/-- What the search for a name and the access at a distance do in a store, in terms of the
chains of its frames. -/
structure SearchesChains (store : FrameStore α) : Prop where
  /-- A name has a value from a frame if and only if a frame of its chain binds it. -/
  get?_isSome : ∀ id name, (store.get? id name).isSome = true ↔
    ∃ frame ∈ store.chain id, store.binds frame name = true
  /-- The value is that in the nearest such frame. -/
  get?_nearest : ∀ id name distance frame, store.IsNearest id name distance frame →
    store.get? id name = store.bound? frame name
  assign?_isSome : ∀ id name value, (store.assign? id name value).isSome = true ↔
    ∃ frame ∈ store.chain id, store.binds frame name = true
  assign?_nearest : ∀ id name distance frame value, store.IsNearest id name distance frame →
    ∃ later, store.assign? id name value = some later ∧ store.Writes frame name value later
  /-- A search that fails leaves the store as it is. -/
  assign?_none : ∀ id name value, store.assign? id name value = none →
    store.changed (.assign id name value) = store
  /-- The frame at the distance must be there and bind the name; nothing else is looked at. -/
  getAt?_isSome : ∀ id distance name, (store.getAt? id distance name).isSome = true ↔
    ∃ inside : distance < (store.chain id).length, store.binds (store.chain id)[distance] name = true
  getAt?_reached : ∀ id distance name frame, (store.chain id)[distance]? = some frame →
    store.getAt? id distance name = store.bound? frame name
  assignAt?_isSome : ∀ id distance name value,
    (store.assignAt? id distance name value).isSome = true ↔
      ∃ inside : distance < (store.chain id).length,
        store.binds (store.chain id)[distance] name = true
  assignAt?_reached : ∀ id distance name value later,
    store.assignAt? id distance name value = some later →
      ∃ frame, (store.chain id)[distance]? = some frame ∧ store.Writes frame name value later
  assignAt?_none : ∀ id distance name value, store.assignAt? id distance name value = none →
    store.changed (.assignAt id distance name value) = store
  /-- At the distance of the nearest frame that binds the name, the access is the search. -/
  agree : ∀ id name distance frame, store.IsNearest id name distance frame →
    store.getAt? id distance name = store.get? id name ∧
      ∀ value, store.assignAt? id distance name value = store.assign? id name value
  /-- What was written is found from the frames whose nearest frame with the name is the
  same one, and nothing else is found otherwise than before. -/
  seen : ∀ id name value later, store.assign? id name value = some later →
    ∃ frame distance, store.IsNearest id name distance frame ∧ ∀ other key,
      ((key = name ∧ ∃ reach, store.IsNearest other name reach frame) →
        later.get? other key = some value) ∧
      (¬ (key = name ∧ ∃ reach, store.IsNearest other name reach frame) →
        later.get? other key = store.get? other key)
  /-- Counting outwards goes on where it stopped, if it did not run out of frames. -/
  ancestor?_add : ∀ id first second, store.ancestor? id (first + second) =
    (store.ancestor? id first).bind (store.ancestor? · second)
  /-- Nothing but a definition adds a binding. -/
  binds_changed : ∀ change frame name, (store.changed change).binds frame name = true →
    store.binds frame name = true ∨ ∃ value, change = .define frame name value

theorem searchesChains (store : FrameStore α) : store.SearchesChains where
  get?_isSome id name := by
    rw [get?, isSome_bind_bound? fun frame found => binds_of_binder? found,
      binder?_isSome_iff]
  get?_nearest id name distance frame nearest := by
    rw [get?, nearest.binder?, Option.bind_some]
  assign?_isSome id name value := by rw [assign?, Option.isSome_map, binder?_isSome_iff]
  assign?_nearest id name distance frame value nearest :=
    ⟨_, by rw [assign?, nearest.binder?, Option.map_some], writes_define nearest.binds value⟩
  assign?_none id name value failed := by rw [changed, failed, Option.getD_none]
  getAt?_isSome id distance name := by
    rw [getAt?_eq_bind_binderAt?,
      isSome_bind_bound? fun frame found => (binderAt?_eq_some_iff.1 found).2, binderAt?_isSome_iff]
  getAt?_reached id distance name frame reached := by
    rw [getAt?, ancestor?_eq_getElem?_chain, reached, Option.bind_some]
  assignAt?_isSome id distance name value := by
    rw [assignAt?, Option.isSome_map, binderAt?_isSome_iff]
  assignAt?_reached id distance name value later written := by
    obtain ⟨frame, found, rfl⟩ := Option.map_eq_some_iff.1 written
    obtain ⟨reached, binds⟩ := binderAt?_eq_some_iff.1 found
    exact ⟨frame, reached, writes_define binds value⟩
  assignAt?_none id distance name value failed := by rw [changed, failed, Option.getD_none]
  agree id name distance frame nearest := by
    constructor
    · rw [getAt?_eq_bind_binderAt?, nearest.binderAt?, get?, nearest.binder?]
    · intro value
      rw [assignAt?, nearest.binderAt?, assign?, nearest.binder?]
  seen id name value later written := by
    obtain ⟨frame, found, rfl⟩ := Option.map_eq_some_iff.1 written
    obtain ⟨distance, nearest⟩ := binder?_eq_some_iff.1 found
    refine ⟨frame, distance, nearest, fun other key => ?_⟩
    rw [(writes_define nearest.binds value).get? other key, ← binder?_eq_some_iff]
    exact ⟨fun both => if_pos both, fun different => if_neg different⟩
  ancestor?_add id first second := FrameStore.ancestor?_add id first second
  binds_changed change frame name bound := binds_of_binds_changed bound

/-- In a store that is built by making frames, defining names and writing them, the search
and the access at a distance are those of the chains, and every binding was defined. -/
theorem searchesChains_built (changes : List (Change α)) :
    (built changes).SearchesChains ∧
      ∀ frame name, (built changes).binds frame name = true →
        ∃ value, .define frame name value ∈ changes := by
  refine ⟨searchesChains _, fun frame name bound => ?_⟩
  rcases defined_of_binds_foldl bound with before | defined
  · cases lt_nextId_of_binds before
  · exact defined

end FrameStore

/-! ## Variables of a run -/

/-- The frames after a variable is given a value: in the frame at its distance, or among
the globals if it has none. -/
def Machine.written? (machine : Machine) (distance : Option Nat) (name : String) (value : Value) :
    Option (FrameStore Value) :=
  match distance with
  | some distance => machine.frames.assignAt? machine.current distance name value
  | none => machine.frames.assign? Machine.globals name value

/-- A run writes by the search and by the access at a distance; where they fail, it stops
with the frames as they were. -/
theorem Execution.assign_eq (distance : Option Nat) (name : Token) (value : Value)
    (machine : Machine) : Execution.assign distance name value machine =
      match machine.written? distance name.lexeme value with
      | some frames => .ok () { machine with frames := frames }
      | none => Execution.fail name (.undefinedVariable name.lexeme) machine := by
  rw [Execution.assign, Execution.get_bind_apply]
  unfold Machine.written?
  cases distance with
  | none =>
      dsimp only [FrameStore.assign?]
      cases machine.frames.binder? Machine.globals name.lexeme <;> rfl
  | some distance =>
      dsimp only [FrameStore.assignAt?]
      cases machine.frames.binderAt? machine.current distance name.lexeme <;> rfl

end Lox
