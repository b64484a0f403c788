/-
# A memory that mirrors a machine

A value of the machine and one of the memory mirror each other if they look the
same, and if the functions behind them were declared at the same place: the
names that the one function keeps are laid out along the frames that the other
one keeps (`Closure.Mirrors`).

A memory mirrors a machine if every cell holds what the frame binds to the name
for which the cell stands, and all else that they hold mirrors each other too
(`Machine.Mirrors`).  Each lemma here is about one change of both.
-/

import Lox.Proofs.Lexical.Layout

namespace Lox

open Lexical (Layout Matches)

variable {texts more : List Text} {layout later : Layout} {frames frames' : FrameStore Value}

/-! ## Values -/

/-- Two functions of one declaration, and the names that the one keeps are laid
out along the frames that the other one keeps. -/
structure Closure.Mirrors (texts : List Text) (layout : Layout) (frames : FrameStore Value)
    (closure : Closure) (image : Lexical.Closure) : Prop where
  identity : image.identity = closure.identity
  declaration : image.declaration = Stmt.functionUnlabelled closure.declaration
  home : ∃ analysis kind, Visited texts analysis (.function kind closure.declaration) ∧
    Matches layout frames closure.home analysis.scopes image.home

/-- Two classes of one declaration, and the names that the one keeps are laid
out along the frames that the other one keeps. -/
structure Class.Mirrors (texts : List Text) (layout : Layout) (frames : FrameStore Value)
    (cls : Class) (image : Lexical.Class) : Prop where
  identity : image.identity = cls.identity
  name : image.name = cls.name
  methods : image.methods = Stmt.methodsUnlabelled cls.methods
  home : ∃ analysis outer, Visited texts analysis (.methods cls.methods) ∧
    analysis.scopes = Analysis.receiverScope :: outer ∧
      Matches layout frames cls.home outer image.home

/-- Two values that look the same, and whose functions mirror each other. -/
inductive Value.Mirrors (texts : List Text) (layout : Layout) (frames : FrameStore Value) :
    Value → Lexical.Value → Prop where
  | nil : Mirrors texts layout frames .nil .nil
  | boolean (value : Bool) : Mirrors texts layout frames (.boolean value) (.boolean value)
  | number (value : Float) : Mirrors texts layout frames (.number value) (.number value)
  | string (text : String) : Mirrors texts layout frames (.string text) (.string text)
  | native (native : Native) : Mirrors texts layout frames (.native native) (.native native)
  | function {closure : Closure} {image : Lexical.Closure}
      (mirrors : Closure.Mirrors texts layout frames closure image) :
      Mirrors texts layout frames (.function closure) (.function image)
  | classValue {cls : Class} {image : Lexical.Class}
      (mirrors : Class.Mirrors texts layout frames cls image) :
      Mirrors texts layout frames (.classValue cls) (.classValue image)
  | instanceValue (identity : Nat) {cls : Class} {image : Lexical.Class}
      (mirrors : Class.Mirrors texts layout frames cls image) :
      Mirrors texts layout frames (.instanceValue ⟨identity, cls⟩)
        (.instanceValue ⟨identity, image⟩)

theorem Class.Mirrors.mono {cls : Class} {image : Lexical.Class} {isOpen : Option FrameId}
    (mirrors : Class.Mirrors texts layout frames cls image) (subset : texts ⊆ more)
    (grown : layout <+: later) (keeps : FrameStore.Keeps isOpen frames frames') :
    Class.Mirrors more later frames' cls image := by
  obtain ⟨identity, name, methods, analysis, outer, visited, same, fits⟩ := mirrors
  exact ⟨identity, name, methods, analysis, outer, visited.mono subset, same,
    fits.mono grown keeps⟩

namespace Value.Mirrors

variable {value other : Value} {image image' : Lexical.Value} {isOpen : Option FrameId}

/-- What mirrors a value does so for ever, whatever happens to the frames. -/
theorem mono (mirrors : Mirrors texts layout frames value image) (subset : texts ⊆ more)
    (grown : layout <+: later) (keeps : FrameStore.Keeps isOpen frames frames') :
    Mirrors more later frames' value image := by
  cases mirrors with
  | function mirrors =>
      obtain ⟨identity, declaration, analysis, kind, visited, fits⟩ := mirrors
      exact .function ⟨identity, declaration, analysis, kind, visited.mono subset,
        fits.mono grown keeps⟩
  | classValue mirrors => exact .classValue (mirrors.mono subset grown keeps)
  | instanceValue identity mirrors =>
      exact .instanceValue identity (mirrors.mono subset grown keeps)
  | nil => exact .nil
  | boolean value => exact .boolean value
  | number value => exact .number value
  | string text => exact .string text
  | native native => exact .native native

theorem ofLiteral (literal : Literal) :
    Mirrors texts layout frames (.ofLiteral literal) (.ofLiteral literal) := by
  cases literal with
  | number value => exact .number value
  | string text => exact .string text
  | boolean value => exact .boolean value
  | nil => exact .nil

theorem isTruthy (mirrors : Mirrors texts layout frames value image) :
    image.isTruthy = value.isTruthy := by
  cases mirrors <;> rfl

theorem settles (mirrors : Mirrors texts layout frames value image) (operator : Token) :
    Lox.settles operator image = Lox.settles operator value := by
  rw [Lox.settles, Lox.settles, mirrors.isTruthy]

theorem display (mirrors : Mirrors texts layout frames value image) :
    image.display = value.display := by
  cases mirrors with
  | function mirrors =>
      rw [ValueOf.display, ValueOf.display, mirrors.declaration]
      cases ClosureOf.declaration _
      rfl
  | classValue mirrors => exact mirrors.name
  | instanceValue identity mirrors =>
      rw [ValueOf.display, ValueOf.display, mirrors.name]
  | boolean value => cases value <;> rfl
  | _ => rfl

theorem equals (left : Mirrors texts layout frames value image)
    (right : Mirrors texts layout frames other image') :
    image.equals image' = value.equals other := by
  cases left with
  | function mirrors => cases right with
    | function mirrors' =>
        rw [ValueOf.equals, ValueOf.equals, mirrors.identity, mirrors'.identity]
    | _ => rfl
  | classValue mirrors => cases right with
    | classValue mirrors' =>
        rw [ValueOf.equals, ValueOf.equals, mirrors.identity, mirrors'.identity]
    | _ => rfl
  | _ => cases right <;> rfl

end Value.Mirrors

/-- Two results of an operator that are the same fault, or values that mirror
each other. -/
inductive Result.Mirrors (texts : List Text) (layout : Layout) (frames : FrameStore Value) :
    Except RuntimeFault Value → Except RuntimeFault Lexical.Value → Prop where
  | ok {value : Value} {image : Lexical.Value}
      (mirrors : Value.Mirrors texts layout frames value image) :
      Mirrors texts layout frames (.ok value) (.ok image)
  | error (fault : RuntimeFault) : Mirrors texts layout frames (.error fault) (.error fault)

theorem mirrors_prefixValue {value : Value} {image : Lexical.Value} (operator : Token)
    (mirrors : Value.Mirrors texts layout frames value image) :
    Result.Mirrors texts layout frames (prefixValue operator value)
      (prefixValue operator image) := by
  unfold prefixValue
  rw [mirrors.isTruthy]
  split
  · exact .ok (.boolean _)
  · cases mirrors with
    | number value => exact .ok (.number _)
    | _ => exact .error _

theorem mirrors_infixValue {left right : Value} {image image' : Lexical.Value} (operator : Token)
    (mirrors : Value.Mirrors texts layout frames left image)
    (mirrors' : Value.Mirrors texts layout frames right image') :
    Result.Mirrors texts layout frames (infixValue operator left right)
      (infixValue operator image image') := by
  unfold infixValue
  rw [mirrors.equals mirrors']
  split
  · exact .ok (.boolean _)
  · exact .ok (.boolean _)
  · cases mirrors with
    | number value => cases mirrors' with
      | number other => exact .ok (.number _)
      | _ => exact .error _
    | string text => cases mirrors' with
      | string other => exact .ok (.string _)
      | _ => exact .error _
    | _ => exact .error _
  · cases mirrors with
    | number value => cases mirrors' with
      | number other =>
          unfold arithmeticValue
          dsimp only
          split <;> constructor <;> constructor
      | _ => exact .error _
    | _ => cases mirrors' <;> exact .error _

/-! ## Machines -/

/-- A memory that mirrors a machine.  All cells stand for different names, and
none for a global one; what a cell holds mirrors what the frame binds. -/
structure Machine.Mirrors (texts : List Text) (layout : Layout) (machine : Machine)
    (memory : Lexical.Memory) : Prop where
  started : 0 < machine.frames.nextId
  size : memory.cells.size = layout.length
  distinct : layout.Nodup
  inside : ∀ id name, (id, name) ∈ layout → id < machine.frames.nextId ∧ id ≠ Machine.globals
  cells : ∀ (cell : Nat) id name, layout[cell]? = some (id, name) →
    Option.Rel (Value.Mirrors texts layout machine.frames) (machine.frames.bound? id name)
      (memory.cell? cell)
  globals : ∀ name : String, Option.Rel (Value.Mirrors texts layout machine.frames)
    (machine.frames.bound? Machine.globals name) memory.globals[name]?
  instances : memory.fields.size = machine.fields.size
  fields : ∀ (identity : Nat) (name : String),
    Option.Rel (Value.Mirrors texts layout machine.frames)
      (machine.fields[identity]?.bind (·[name]?)) (memory.fields[identity]?.bind (·[name]?))
  identity : memory.nextIdentity = machine.nextIdentity
  console : memory.console = machine.console
  clock : memory.clock = machine.clock

theorem rel_imp {α β : Type} {first second : α → β → Prop} {left : Option α} {right : Option β}
    (rel : Option.Rel first left right) (weaker : ∀ left right, first left right →
      second left right) : Option.Rel second left right := by
  cases rel with
  | some holds => exact .some (weaker _ _ holds)
  | none => exact .none

theorem rel_mono {left : Option Value} {right : Option Lexical.Value} {isOpen : Option FrameId}
    (rel : Option.Rel (Value.Mirrors texts layout frames) left right) (subset : texts ⊆ more)
    (grown : layout <+: later) (keeps : FrameStore.Keeps isOpen frames frames') :
    Option.Rel (Value.Mirrors more later frames') left right :=
  rel_imp rel fun _ _ mirrors => mirrors.mono subset grown keeps

namespace Machine.Mirrors

variable {machine : Machine} {memory : Lexical.Memory} {value : Value} {image : Lexical.Value}
  {id : FrameId} {name : String}

/-- What mirrors a machine does so when more texts are known. -/
theorem known (mirrors : machine.Mirrors texts layout memory) (subset : texts ⊆ more) :
    machine.Mirrors more layout memory := by
  have keeps : FrameStore.Keeps none machine.frames machine.frames := .refl _
  have grown := List.prefix_refl layout
  refine { mirrors with cells := ?_, globals := ?_, fields := ?_ }
  · exact fun cell id name found => rel_mono (mirrors.cells cell id name found) subset grown keeps
  · exact fun name => rel_mono (mirrors.globals name) subset grown keeps
  · exact fun identity name => rel_mono (mirrors.fields identity name) subset grown keeps

/-- A cell is made for a name of a frame that has none yet. -/
theorem newCell (mirrors : machine.Mirrors texts layout memory)
    (inside : id < machine.frames.nextId ∧ id ≠ Machine.globals) (new : (id, name) ∉ layout)
    {content : Option Lexical.Value}
    (rel : Option.Rel (Value.Mirrors texts layout machine.frames)
      (machine.frames.bound? id name) content) :
    machine.Mirrors texts (layout ++ [(id, name)])
      { memory with cells := memory.cells.push content } := by
  have keeps : FrameStore.Keeps none machine.frames machine.frames := .refl _
  have grown : layout <+: layout ++ [(id, name)] := List.prefix_append _ _
  refine { mirrors with
    size := ?_, distinct := ?_, inside := ?_, cells := ?_, globals := ?_, fields := ?_ }
  · rw [Array.size_push, mirrors.size, List.length_append, List.length_singleton]
  · refine List.nodup_append.2 ⟨mirrors.distinct, by simp, fun entry member other single same => ?_⟩
    rw [List.mem_singleton.1 single] at same
    exact new (same ▸ member)
  · intro other key member
    rcases List.mem_append.1 member with old | single
    · exact mirrors.inside other key old
    · cases List.mem_singleton.1 single
      exact inside
  · intro cell other key found
    rw [Lexical.Memory.cell?, Array.getElem?_push, mirrors.size]
    by_cases last : cell = layout.length
    · rw [if_pos last]
      rw [last, List.getElem?_append_right (Nat.le_refl _), Nat.sub_self] at found
      cases found
      exact rel_mono rel (List.Subset.refl _) grown keeps
    · rw [if_neg last]
      have before : cell < layout.length := by
        have bound := (List.getElem?_eq_some_iff.1 found).1
        rw [List.length_append, List.length_singleton] at bound
        exact Nat.lt_of_le_of_ne (Nat.le_of_lt_succ bound) last
      rw [List.getElem?_append_left before] at found
      exact rel_mono (mirrors.cells cell other key found) (List.Subset.refl _) grown keeps
  · exact fun name => rel_mono (mirrors.globals name) (List.Subset.refl _) grown keeps
  · exact fun identity name =>
      rel_mono (mirrors.fields identity name) (List.Subset.refl _) grown keeps

/-- A frame is made; none of its names has a cell yet. -/
theorem push (mirrors : machine.Mirrors texts layout memory) (enclosing : FrameId)
    (bindings : Bindings Value) (current : FrameId) :
    ({ machine with
        frames := machine.frames.push (some enclosing) bindings
        current := current } : Machine).Mirrors texts layout memory := by
  have keeps := FrameStore.Keeps.push machine.frames (some enclosing) bindings
  have grown := List.prefix_refl layout
  refine { mirrors with started := ?_, inside := ?_, cells := ?_, globals := ?_, fields := ?_ }
  · rw [FrameStore.nextId_push]
    exact Nat.succ_pos _
  · intro id name member
    obtain ⟨inside, other⟩ := mirrors.inside id name member
    exact ⟨Nat.lt_of_lt_of_le inside keeps.size, other⟩
  · intro cell id name found
    have inside := (mirrors.inside id name (List.mem_of_getElem? found)).1
    rw [FrameStore.bound?_push, if_neg (Nat.ne_of_lt inside)]
    exact rel_mono (mirrors.cells cell id name found) (List.Subset.refl _) grown keeps
  · intro name
    have before : Machine.globals ≠ machine.frames.nextId := Nat.ne_of_lt mirrors.started
    rw [FrameStore.bound?_push, if_neg before]
    exact rel_mono (mirrors.globals name) (List.Subset.refl _) grown keeps
  · exact fun identity name =>
      rel_mono (mirrors.fields identity name) (List.Subset.refl _) grown keeps

/-- A name of a frame and its cell are given values that mirror each other.  What
is kept of the frames is told by whoever knows whether the name is new. -/
theorem write (mirrors : machine.Mirrors texts layout memory) {cell : Nat}
    (found : layout[cell]? = some (id, name))
    (rel : Value.Mirrors texts layout (machine.frames.define id name value) value image) :
    ({ machine with frames := machine.frames.define id name value }).Mirrors texts layout
      { memory with cells := memory.cells.setIfInBounds cell (some image) } := by
  have keeps : FrameStore.Keeps (some id) machine.frames _ := .define machine.frames name value
  have grown := List.prefix_refl layout
  obtain ⟨inside, other⟩ := mirrors.inside id name (List.mem_of_getElem? found)
  refine { mirrors with
    started := ?_, size := ?_, inside := ?_, cells := ?_, globals := ?_, fields := ?_ }
  · rw [FrameStore.nextId_define]
    exact mirrors.started
  · rw [Array.size_setIfInBounds, mirrors.size]
  · simpa only [FrameStore.nextId_define] using mirrors.inside
  · intro cell' id' name' found'
    rw [FrameStore.bound?_define inside, Lexical.Memory.cell?, Array.getElem?_setIfInBounds]
    by_cases same : cell = cell'
    · have bound : cell < memory.cells.size :=
        mirrors.size ▸ (List.getElem?_eq_some_iff.1 found).1
      rw [← same, found] at found'
      cases found'
      rw [if_pos ⟨rfl, rfl⟩, if_pos same, if_pos bound]
      exact .some rel
    · -- No two cells stand for the same name.
      have apart : ¬(id' = id ∧ name' = name) := by
        rintro ⟨rfl, rfl⟩
        exact same ((List.getElem?_inj (List.getElem?_eq_some_iff.1 found).1 mirrors.distinct).1
          (found.trans found'.symm))
      rw [if_neg apart, if_neg same]
      exact rel_mono (mirrors.cells cell' id' name' found') (List.Subset.refl _) grown keeps
  · intro key
    rw [FrameStore.bound?_define inside, if_neg fun both => other both.1.symm]
    exact rel_mono (mirrors.globals key) (List.Subset.refl _) grown keeps
  · exact fun identity name =>
      rel_mono (mirrors.fields identity name) (List.Subset.refl _) grown keeps

/-- A global name is given values that mirror each other. -/
theorem writeGlobal (mirrors : machine.Mirrors texts layout memory) (name : String)
    (rel : Value.Mirrors texts layout (machine.frames.define Machine.globals name value)
      value image) :
    ({ machine with frames := machine.frames.define Machine.globals name value }).Mirrors texts
      layout { memory with globals := memory.globals.insert name image } := by
  have grown := List.prefix_refl layout
  have inside : Machine.globals < machine.frames.nextId := mirrors.started
  refine { mirrors with started := ?_, inside := ?_, cells := ?_, globals := ?_, fields := ?_ }
  · rw [FrameStore.nextId_define]
    exact mirrors.started
  · simpa only [FrameStore.nextId_define] using mirrors.inside
  · intro cell id key found
    have other := (mirrors.inside id key (List.mem_of_getElem? found)).2
    rw [FrameStore.bound?_define inside, if_neg fun both => other both.1]
    exact rel_mono (mirrors.cells cell id key found) (List.Subset.refl _) grown
      (.define machine.frames name value)
  · intro key
    dsimp only
    rw [FrameStore.bound?_define inside, Bindings.getElem?_insert]
    by_cases same : key = name
    · rw [if_pos ⟨rfl, same⟩, if_pos same]
      exact .some rel
    · rw [if_neg fun both => same both.2, if_neg same]
      exact rel_mono (mirrors.globals key) (List.Subset.refl _) grown
        (.define machine.frames name value)
  · exact fun identity key => rel_mono (mirrors.fields identity key) (List.Subset.refl _) grown
      (.define machine.frames name value)

/-- A field is set to values that mirror each other. -/
theorem setField (mirrors : machine.Mirrors texts layout memory) (identity : Nat) (name : String)
    (rel : Value.Mirrors texts layout machine.frames value image) :
    ({ machine with fields := machine.fields.modify identity (·.insert name value) }).Mirrors
      texts layout
      { memory with fields := memory.fields.modify identity (·.insert name image) } := by
  refine { mirrors with instances := ?_, fields := ?_ }
  · rw [Array.size_modify, Array.size_modify, mirrors.instances]
  · intro other key
    rw [Bindings.getElem?_modify_insert, Bindings.getElem?_modify_insert, mirrors.instances]
    split
    · exact .some rel
    · exact mirrors.fields other key

/-- An instance without fields is made. -/
theorem newInstance (mirrors : machine.Mirrors texts layout memory) :
    ({ machine with fields := machine.fields.push {} }).Mirrors texts layout
      { memory with fields := memory.fields.push {} } := by
  refine { mirrors with instances := ?_, fields := ?_ }
  · rw [Array.size_push, Array.size_push, mirrors.instances]
  · intro identity name
    rw [Array.getElem?_push, Array.getElem?_push, mirrors.instances]
    by_cases last : identity = machine.fields.size
    · rw [if_pos last, if_pos last]
      simp only [Option.bind_some, Std.TreeMap.getElem?_emptyc]
      exact .none
    · rw [if_neg last, if_neg last]
      exact mirrors.fields identity name

/-- The memory of a new session mirrors its machine. -/
theorem initial (console : Console) (clock : Clock) :
    (Machine.initial console clock).Mirrors [] [] (Lexical.Memory.initial console clock) := by
  refine ⟨?_, rfl, List.nodup_nil, nofun, nofun, fun name => ?_, rfl, fun identity name => ?_, rfl,
    rfl, rfl⟩
  · rw [Machine.initial, FrameStore.nextId_push]
    exact Nat.succ_pos _
  · have first : Machine.globals = ({} : FrameStore Value).nextId := rfl
    rw [Machine.initial, FrameStore.bound?_push, if_pos first, Lexical.Memory.initial]
    dsimp only
    rw [Bindings.getElem?_insert, Bindings.getElem?_insert]
    by_cases clock : name = "clock"
    · rw [if_pos clock, if_pos clock]
      exact .some (.native .clock)
    · rw [if_neg clock, if_neg clock, Std.TreeMap.getElem?_emptyc, Std.TreeMap.getElem?_emptyc]
      exact .none
  · exact .none

end Machine.Mirrors

end Lox
