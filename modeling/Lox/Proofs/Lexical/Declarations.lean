/-
# Declarations

Where a statement stands, the names in force are laid out along the open
frames, and the current frame has no other names than its scope declares
(`Lexical.Stands`).  So a name that is declared is new to the frame, and the
cell that is made for it is unset as long as the frame does not bind the name.

The parameters of a function are declared all at once, in a new frame.
-/

import Mathlib.Data.List.Forall2
import Lox.Proofs.Lexical.Follows

namespace Lox

open Execution Analysis

namespace Lexical

variable {texts : List Text} {opens : Bool} {layout later : Layout} {machine machine' : Machine}
  {memory : Memory} {scopes : List Scope} {place : Place}

/-- A place where a statement stands: the names in force are laid out along the
frames, and the current frame has only the names of its scope. -/
def Stands (layout : Layout) (frames : FrameStore Lox.Value) (current : FrameId) :
    List Scope → Place → Prop
  | [], .top => current = Machine.globals
  | scope :: outer, .inside env => Matches layout frames current (scope :: outer) env ∧
    ∀ name : String, (current, name) ∈ layout ∨ frames.binds current name = true →
      scope.contains name = true
  | _, _ => False

theorem Stands.fits {frames : FrameStore Lox.Value} {current : FrameId}
    (stands : Stands layout frames current scopes place) :
    Matches layout frames current scopes place.env := by
  cases scopes with
  | nil => cases place with
    | top => exact ⟨stands, rfl⟩
    | inside env => exact stands.elim
  | cons scope outer => cases place with
    | top => exact stands.elim
    | inside env => exact stands.1

/-- An expression changes nothing about the place. -/
theorem Stands.extend (stands : Stands layout machine.frames machine.current scopes place)
    (started : 0 < machine.frames.nextId)
    (extends' : Extends false layout machine later machine') :
    Stands later machine'.frames machine'.current scopes place := by
  have fits := extends'.fits stands.fits
  have inside := stands.fits.lt_nextId started
  cases scopes with
  | nil => cases place with
    | top => exact extends'.keeps.current.trans stands
    | inside env => exact stands.elim
  | cons scope outer => cases place with
    | top => exact stands.elim
    | inside env =>
        refine ⟨fits, fun name held => stands.2 name ?_⟩
        rw [extends'.keeps.current] at held
        rcases held with made | bound
        · exact .inl (extends'.own _ name made inside nofun)
        · exact .inr (extends'.keeps.frames.noOthers _ inside nofun name bound)

/-- Where a new frame is entered, with the names of a new scope. -/
theorem enter_stands {home : FrameId} {env inner : Env} {scope : Scope}
    {bindings : Bindings Lox.Value} (mirrors : machine.Mirrors texts layout memory)
    (fits : Matches layout machine.frames home scopes env) (grown : layout <+: later)
    (names : ∀ name : String, scope.contains name = true ↔ name ∈ inner.map Prod.fst)
    (cells : ∀ entry ∈ inner, later[entry.2]? = some (machine.frames.nextId, entry.1))
    (own : ∀ name : String, (machine.frames.nextId, name) ∈ later ∨
      bindings[name]?.isSome = true → scope.contains name = true) :
    Stands later (machine.entering home bindings).frames machine.frames.nextId (scope :: scopes)
      (.inside (inner ++ env)) := by
  refine ⟨fits.push mirrors.started grown bindings names cells, fun name held => own name ?_⟩
  rw [FrameStore.binds, Machine.entering, FrameStore.bound?_push, if_pos rfl] at held
  exact held

theorem block_stands (mirrors : machine.Mirrors texts layout memory)
    (stands : Stands layout machine.frames machine.current scopes place) :
    Stands layout (machine.entering machine.current {}).frames machine.frames.nextId
      (({} : Scope) :: scopes) (.inside place.env) := by
  have entered : Stands layout (machine.entering machine.current {}).frames
      machine.frames.nextId (({} : Scope) :: scopes) (.inside ([] ++ place.env)) := by
    refine enter_stands mirrors stands.fits (List.prefix_refl layout) (fun name => ?_) nofun
      fun name either => ?_
    · simp
    · rcases either with among | bound
      · exact (Nat.lt_irrefl _ (mirrors.inside _ _ among).1).elim
      · simp at bound
  exact entered

/-- A declaration makes a cell for its name, unless it is a global one. -/
theorem declare_stands (name : String) (mirrors : machine.Mirrors texts layout memory)
    (stands : Stands layout machine.frames machine.current scopes place)
    (undeclared : ∀ scope outer, scopes = scope :: outer → scope.contains name = false) :
    ∃ behind memory' later, declare place name memory = .ok behind memory' ∧
      Extends true layout machine later machine ∧ machine.Mirrors texts later memory' ∧
      Stands later machine.frames machine.current (declared name scopes) behind := by
  cases scopes with
  | nil => cases place with
    | top => exact ⟨.top, memory, layout, rfl, .refl layout machine, mirrors, stands⟩
    | inside env => exact stands.elim
  | cons scope outer => cases place with
    | top => exact stands.elim
    | inside env =>
        obtain ⟨fits, own⟩ := stands
        have absent := undeclared scope outer rfl
        have new : (machine.current, name) ∉ layout := fun among => by
          rw [own name (.inl among)] at absent
          cases absent
        have unbound : machine.frames.bound? machine.current name = none := by
          cases bound : machine.frames.bound? machine.current name with
          | none => rfl
          | some value =>
              rw [own name (.inr (FrameStore.binds_iff.2 ⟨value, bound⟩))] at absent
              cases absent
        have inside := fits.lt_nextId mirrors.started
        have made : machine.Mirrors texts _ { memory with cells := memory.cells.push none } :=
          mirrors.newCell ⟨inside, fits.ne_globals⟩ new (unbound ▸ .none)
        have cell : (layout ++ [(machine.current, name)])[memory.cells.size]? =
            some (machine.current, name) := by
          rw [mirrors.size]
          exact List.getElem?_concat_length
        have grown : layout <+: layout ++ [(machine.current, name)] := List.prefix_append _ _
        have kept : FrameStore.Keeps none machine.frames machine.frames := .refl _
        refine ⟨.inside ((name, memory.cells.size) :: env), _, _, rfl,
          ⟨.refl machine, grown, fun id key among before other => ?_⟩, made,
          (fits.mono grown kept).declare cell, fun key held => ?_⟩
        · rcases List.mem_append.1 among with old | single
          · exact old
          · cases List.mem_singleton.1 single
            exact (other rfl rfl).elim
        · rw [Scope.contains_insert]
          rcases held with among | bound
          · rcases List.mem_append.1 among with old | single
            · exact .inr (own key (.inl old))
            · cases List.mem_singleton.1 single
              exact .inl rfl
          · exact .inr (own key (.inr bound))

/-- A name that was declared is given values that mirror each other as soon as
the name is in force with them. -/
theorem follows_define (name : String) {value : Lox.Value} {image : Value}
    (mirrors : machine.Mirrors texts layout memory)
    (stands : Stands layout machine.frames machine.current (declared name scopes) place)
    (holds : ∀ frames, FrameStore.Keeps (some machine.current) machine.frames frames →
      Matches layout frames machine.current (defined name (declared name scopes)) place.env →
        Value.Mirrors texts layout frames value image) :
    Follows texts true layout (Execution.define name value) machine (define place name image)
      memory fun later frames _ _ =>
        Stands later frames machine.current (defined name (declared name scopes)) place := by
  have keeps : FrameStore.Keeps (some machine.current) machine.frames _ :=
    .define machine.frames name value
  have fits := (stands.fits.mono (List.prefix_refl layout) keeps).define
  have same := holds _ keeps fits
  cases scopes with
  | nil => cases place with
    | top =>
        have top : machine.current = Machine.globals := stands
        rw [top] at same
        have written := mirrors.writeGlobal name same
        refine ⟨layout, .of_keeps ⟨rfl, keeps⟩, ?_, stands⟩
        rw [← top] at written
        exact written
    | inside env => exact stands.elim
  | cons scope outer => cases place with
    | top => exact stands.elim
    | inside env =>
        obtain ⟨before, own⟩ := stands
        have entry := before.lookup name
        have near : (scope.insert name false :: outer).findIdx?
            (fun scope => scope.contains name) = some 0 := by
          have added := Scope.contains_insert scope name name false
          rw [List.findIdx?_cons, if_pos (added.2 (.inl rfl))]
        rw [near] at entry
        obtain ⟨frame, cell, reached, listed, found⟩ := entry
        cases reached
        have written := mirrors.write found same
        have inside := before.lt_nextId mirrors.started
        refine ⟨layout, .of_keeps ⟨rfl, keeps⟩, ?_, fits, fun key held => ?_⟩
        · have write : memory.write env name image =
              { memory with cells := memory.cells.setIfInBounds cell (some image) } := by
            rw [Memory.write, listed]
          rw [← write] at written
          exact written
        · rw [Scope.contains_insert]
          rcases held with among | bound
          · exact .inr (own key (.inl among))
          · rcases (FrameStore.binds_define inside _ _ _ _).1 bound with ⟨_, here⟩ | old
            · exact .inl here
            · exact .inr (own key (.inr old))

/-- Each parameter has a cell of its own, which holds its argument. -/
theorem bindParameters_mirrors {id : FrameId} {pairs : List (Token × Value)} (env : Env)
    (mirrors : machine.Mirrors texts layout memory)
    (inside : id < machine.frames.nextId ∧ id ≠ Machine.globals)
    (different : (pairs.map (Token.lexeme ∘ Prod.fst)).Nodup)
    (new : ∀ pair ∈ pairs, (id, pair.1.lexeme) ∉ layout)
    (bound : ∀ pair ∈ pairs, ∃ value, machine.frames.bound? id pair.1.lexeme = some value ∧
      Value.Mirrors texts layout machine.frames value pair.2) :
    ∃ inner memory', bindParameters env pairs memory = .ok (inner ++ env) memory' ∧
      machine.Mirrors texts (layout ++ pairs.map fun pair => (id, pair.1.lexeme)) memory' ∧
      (∀ name, name ∈ inner.map Prod.fst ↔ name ∈ pairs.map (Token.lexeme ∘ Prod.fst)) ∧
      ∀ entry ∈ inner, (layout ++ pairs.map fun pair => (id, pair.1.lexeme))[entry.2]? =
        some (id, entry.1) := by
  induction pairs generalizing layout memory env with
  | nil =>
      refine ⟨[], memory, rfl, ?_, fun name => Iff.rfl, nofun⟩
      rwa [List.map_nil, List.append_nil]
  | cons pair pairs ih =>
      obtain ⟨apart, different⟩ := List.nodup_cons.1 different
      obtain ⟨value, here, same⟩ := bound pair List.mem_cons_self
      have grown : layout <+: layout ++ [(id, pair.1.lexeme)] := List.prefix_append _ _
      have kept : FrameStore.Keeps none machine.frames machine.frames := .refl _
      have made : machine.Mirrors texts _
          { memory with cells := memory.cells.push (some pair.2) } :=
        mirrors.newCell inside (new pair List.mem_cons_self) (here ▸ .some same)
      have others (other : Token × Value) (member : other ∈ pairs) :
          (id, other.1.lexeme) ∉ layout ++ [(id, pair.1.lexeme)] := by
        intro among
        rcases List.mem_append.1 among with old | single
        · exact new other (List.mem_cons_of_mem _ member) old
        · have equal : other.1.lexeme = pair.1.lexeme :=
            congrArg Prod.snd (List.mem_singleton.1 single)
          exact apart (List.mem_map.2 ⟨other, member, equal⟩)
      have further (other : Token × Value) (member : other ∈ pairs) :
          ∃ value, machine.frames.bound? id other.1.lexeme = some value ∧
            Value.Mirrors texts (layout ++ [(id, pair.1.lexeme)]) machine.frames value other.2 := by
        obtain ⟨value, found, holds⟩ := bound other (List.mem_cons_of_mem _ member)
        exact ⟨value, found, holds.mono (List.Subset.refl _) grown kept⟩
      have cell : (layout ++ [(id, pair.1.lexeme)])[memory.cells.size]? =
          some (id, pair.1.lexeme) := by
        rw [mirrors.size]
        exact List.getElem?_concat_length
      have rest := ih ((pair.1.lexeme, memory.cells.size) :: env) made different others further
      rw [List.append_assoc, List.singleton_append] at rest
      obtain ⟨inner, memory', ran, mirrored, names, cells⟩ := rest
      refine ⟨inner ++ [(pair.1.lexeme, memory.cells.size)], memory', ?_, mirrored, fun name => ?_,
        fun entry member => ?_⟩
      · rw [List.append_assoc, List.singleton_append]
        exact ran
      · rw [List.map_append, List.mem_append, names name, List.map_cons, List.map_nil,
          List.mem_singleton, List.map_cons, List.mem_cons, or_comm]
        rfl
      · rcases List.mem_append.1 member with more | single
        · exact cells entry more
        · cases List.mem_singleton.1 single
          rw [List.map_cons, ← List.singleton_append, ← List.append_assoc]
          exact getElem?_of_prefix (List.prefix_append _ _) cell

/-- Each argument of the one call has its image in the other call, for the same
parameter. -/
theorem exists_mem_zip {α β γ : Type} {related : α → β → Prop} {values : List α}
    {images : List β} (all : List.Forall₂ related values images) {keys : List γ} {key : γ}
    {image : β} (member : (key, image) ∈ keys.zip images) :
    ∃ value, (key, value) ∈ keys.zip values ∧ related value image := by
  induction all generalizing keys with
  | nil => simp at member
  | @cons value other values images same all ih =>
      cases keys with
      | nil => cases member
      | cons first keys =>
          rw [List.zip_cons_cons] at member ⊢
          rcases List.mem_cons.1 member with here | further
          · cases here
            exact ⟨value, List.mem_cons_self, same⟩
          · obtain ⟨found, among, holds⟩ := ih further
            exact ⟨found, List.mem_cons_of_mem _ among, holds⟩

/-- The body of a function that is called stands where its parameters are in front
of the names that the function keeps. -/
theorem parameters_stand {analysis : Analysis} {kind : FunctionKind} {name : Token}
    {names : List Token} {body : List (Stmt Reference)} {home : FrameId} {env : Env}
    {arguments : List Lox.Value} {images : List Value}
    (visited : Visited texts analysis (.function kind (.mk name names body)))
    (mirrors : machine.Mirrors texts layout memory)
    (fits : Matches layout machine.frames home analysis.scopes env)
    (same : List.Forall₂ (Value.Mirrors texts layout machine.frames) arguments images)
    (arity : images.length = names.length) :
    ∃ inner memory' later, bindParameters env (names.zip images) memory = .ok inner memory' ∧
      layout <+: later ∧
      (∀ id name, (id, name) ∈ later → id < machine.frames.nextId → (id, name) ∈ layout) ∧
      (machine.entering home (argumentBindings names arguments)).Mirrors texts later memory' ∧
      Stands later (machine.entering home (argumentBindings names arguments)).frames
        machine.frames.nextId (analysis.enterFunction kind names).scopes (.inside inner) := by
  let bindings := argumentBindings names arguments
  have entered : (Analysis.enter { analysis with inFunction := some kind }).scopes =
      ({} : Scope) :: analysis.scopes := rfl
  obtain ⟨scope, scopes, held⟩ := scopes_parameters entered names
  have different := (nodup_of_parameters (visited.call .body).quiet entered).2
  have keys : (names.zip images).map (Token.lexeme ∘ Prod.fst) = names.map Token.lexeme := by
    rw [← List.map_map, List.map_fst_zip (Nat.le_of_eq arity.symm)]
  have declares (name : String) : scope.contains name = true ↔ name ∈ names.map Token.lexeme := by
    rw [← Std.TreeMap.isSome_getElem?_eq_contains, held name]
    by_cases member : name ∈ names.map Token.lexeme
    · simp [member]
    · simp [member]
  have pushed := mirrors.push home bindings machine.frames.nextId
  have kept := FrameStore.Keeps.push machine.frames (some home) bindings
  have inside : machine.frames.nextId < (machine.frames.push (some home) bindings).nextId ∧
      machine.frames.nextId ≠ Machine.globals := by
    rw [FrameStore.nextId_push]
    exact ⟨Nat.lt_succ_self _, Nat.ne_of_gt mirrors.started⟩
  have new (name : String) : (machine.frames.nextId, name) ∉ layout := fun among =>
    Nat.lt_irrefl _ (mirrors.inside _ _ among).1
  have bound (pair : Token × Value) (member : pair ∈ names.zip images) :
      ∃ value, (machine.frames.push (some home) bindings).bound? machine.frames.nextId
          pair.1.lexeme = some value ∧
        Value.Mirrors texts layout (machine.frames.push (some home) bindings) value pair.2 := by
    obtain ⟨value, among, holds⟩ := exists_mem_zip same member
    refine ⟨value, ?_, holds.mono (List.Subset.refl _) (List.prefix_refl _) kept⟩
    rw [FrameStore.bound?_push, if_pos rfl]
    exact getElem?_argumentBindings (same.length_eq.trans arity) different among
  obtain ⟨inner, memory', ran, mirrored, named, cells⟩ :=
    bindParameters_mirrors env pushed inside (keys ▸ different) (fun pair _ => new _) bound
  rw [keys] at named
  have grown : layout <+: layout ++ (names.zip images).map fun pair =>
      (machine.frames.nextId, pair.1.lexeme) := List.prefix_append _ _
  refine ⟨inner ++ env, memory', _, ran, grown, fun id name among before => ?_, mirrored, ?_⟩
  · rcases List.mem_append.1 among with old | parameter
    · exact old
    · obtain ⟨pair, _, equal⟩ := List.mem_map.1 parameter
      cases equal
      exact (Nat.lt_irrefl _ before).elim
  · rw [enterFunction, scopes]
    refine enter_stands mirrors fits grown (fun name => (declares name).trans (named name).symm)
      cells fun name either => (declares name).2 ?_
    rcases either with among | isBound
    · rcases List.mem_append.1 among with old | parameter
      · exact (new name old).elim
      · obtain ⟨pair, member, equal⟩ := List.mem_map.1 parameter
        cases equal
        exact List.mem_map_of_mem (List.of_mem_zip member).1
    · obtain ⟨value, found⟩ := Option.isSome_iff_exists.1 isBound
      obtain ⟨parameter, member, equal⟩ := exists_of_argumentBindings found
      exact equal ▸ List.mem_map_of_mem (List.of_mem_zip member).1

end Lexical

end Lox
