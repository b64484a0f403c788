/-
# Readings without a fault

A reading is *clean* if its phrase was read and nothing was noticed.  For each
way of putting readings together this module says when the result is clean,
so that a function that reads can be opened up into the clean readings of its
parts.  Lengths of what is left, which the type of a reading carries, drop out.
-/

import Lox.Proofs.Reading

namespace Lox

namespace Token

theorem isSymbol_iff {token : Token} {symbol : Symbol} :
    token.isSymbol symbol = true ↔ token.kind = .symbol symbol := by
  simp [isSymbol]

theorem isKeyword_iff {token : Token} {keyword : Keyword} :
    token.isKeyword keyword = true ↔ token.kind = .keyword keyword := by
  simp [isKeyword]

theorem isIdentifier_iff {token : Token} :
    token.isIdentifier = true ↔ token.kind = .identifier := by
  simp [isIdentifier]

end Token

namespace Reader

variable {α β : Type} {n : Nat}

/-- The phrase was read, nothing was noticed, and `rest` is left. -/
def Clean (reading : Reader Id α n) (value : α) (rest : List Token) : Prop :=
  ∃ shorter, reading = done value [] rest shorter

theorem Clean.length_lt {reading : Reader Id α n} {value : α} {rest : List Token}
    (clean : reading.Clean value rest) : rest.length < n :=
  clean.1

@[simp]
theorem clean_done {value found : α} {notices : List Notice} {left rest : List Token}
    {shorter : left.length < n} :
    (done value notices left shorter).Clean found rest ↔
      value = found ∧ notices = [] ∧ left = rest := by
  constructor
  · rintro ⟨_, same⟩
    injection same with values empty rests
    exact ⟨values, empty, rests⟩
  · rintro ⟨rfl, rfl, rfl⟩
    exact ⟨shorter, rfl⟩

@[simp]
theorem not_clean_stuck {found : α} {notices : List Notice} {fault : SyntaxFault}
    {left rest : List Token} {bound : left.length ≤ n} :
    ¬ (stuck notices fault left bound : Reader Id α n).Clean found rest := by
  rintro ⟨_, same⟩
  cases same

@[simp]
theorem clean_still {value found : α} {tokens rest : List Token} :
    (still value tokens).Clean found rest ↔ value = found ∧ tokens = rest := by
  simp [still_eq]

@[simp]
theorem not_clean_stopped {fault : SyntaxFault} {found : α} {tokens rest : List Token} :
    ¬ (stopped fault tokens : Reader Id α tokens.length).Clean found rest := by
  simp [stopped_eq]

@[simp]
theorem clean_behind {reading : Reader Id α n} {found : α} {rest : List Token} :
    reading.behind.Clean found rest ↔ reading.Clean found rest := by
  cases reading <;> simp

@[simp]
theorem clean_map {f : α → β} {reading : Reader Id α n} {found : β} {rest : List Token} :
    (reading.map f).Clean found rest ↔ ∃ value, reading.Clean value rest ∧ f value = found := by
  cases reading with
  | done value notices left shorter =>
      simp only [map_done, clean_done]
      constructor
      · rintro ⟨rfl, empty, same⟩
        exact ⟨value, ⟨rfl, empty, same⟩, rfl⟩
      · rintro ⟨_, ⟨rfl, empty, same⟩, rfl⟩
        exact ⟨rfl, empty, same⟩
  | stuck notices fault left bound => simp

@[simp]
theorem clean_noticing {earlier : List Notice} {reading : Reader Id α n} {found : α}
    {rest : List Token} :
    (reading.noticing earlier).Clean found rest ↔ earlier = [] ∧ reading.Clean found rest := by
  cases reading with
  | done value notices left shorter =>
      simp only [noticing_done, clean_done, List.append_eq_nil_iff]
      constructor
      · rintro ⟨same, ⟨none, quiet⟩, left⟩
        exact ⟨none, same, quiet, left⟩
      · rintro ⟨none, same, quiet, left⟩
        exact ⟨same, ⟨none, quiet⟩, left⟩
  | stuck notices fault left bound => simp

/-- One phrase behind another is read cleanly if both are. -/
theorem clean_andPerhaps {reading : Reader Id α n}
    {next : α → (rest : List Token) → rest.length < n → Reader Id β (rest.length + 1)}
    {found : β} {rest : List Token} :
    (reading.andPerhaps next).Clean found rest ↔
      ∃ value left, ∃ shorter : left.length < n,
        reading.Clean value left ∧ (next value left shorter).Clean found rest := by
  cases reading with
  | stuck notices fault left bound => simp
  | done value notices left shorter =>
      constructor
      · intro clean
        cases second : next value left shorter with
        | stuck more fault left' bound => simp [andPerhaps_of_stuck second] at clean
        | done value' more left' shorter' =>
            simp only [andPerhaps_of_done second, clean_done, List.append_eq_nil_iff] at clean
            obtain ⟨rfl, ⟨rfl, rfl⟩, rfl⟩ := clean
            exact ⟨value, left, shorter, clean_done.2 ⟨rfl, rfl, rfl⟩, by simp [second]⟩
      · rintro ⟨_, _, _, first, clean⟩
        obtain ⟨rfl, rfl, rfl⟩ := clean_done.1 first
        obtain ⟨shorter', second⟩ := clean
        simp [andPerhaps_of_done second]

theorem clean_andThen {reading : Reader Id α n}
    {next : α → (rest : List Token) → rest.length < n → Reader Id β rest.length}
    {found : β} {rest : List Token} :
    (reading.andThen next).Clean found rest ↔
      ∃ value left, ∃ shorter : left.length < n,
        reading.Clean value left ∧ (next value left shorter).Clean found rest := by
  simp only [andThen, clean_andPerhaps, clean_behind]

end Reader

open Reader

theorem clean_expect {wanted : Token → Bool} {fault : SyntaxFault} {tokens : List Token}
    {found : Token} {rest : List Token} :
    (expect wanted fault tokens).Clean found rest ↔
      tokens = found :: rest ∧ wanted found = true := by
  cases tokens with
  | nil => simp [expect]
  | cons token left =>
      by_cases accepted : wanted token = true
      · simp only [expect, if_pos accepted, clean_still, List.cons.injEq]
        constructor
        · rintro ⟨rfl, rfl⟩
          exact ⟨⟨rfl, rfl⟩, accepted⟩
        · rintro ⟨same, _⟩
          exact same
      · simp only [expect, if_neg accepted, not_clean_stopped, List.cons.injEq, false_iff,
          not_and]
        rintro ⟨rfl, _⟩
        exact accepted

namespace Declarer

variable {n : Nat}

/-- The statement was read, nothing was noticed, and `rest` is left. -/
def Clean (declared : Declarer Id Unit n) (statement : Stmt Unit) (rest : List Token) : Prop :=
  declared.statement = some statement ∧ declared.notices = [] ∧ declared.rest = rest

theorem clean_ofReader {reading : Reader Id (Stmt Unit) (n + 1)} {statement : Stmt Unit}
    {rest : List Token} :
    (ofReader reading).Clean statement rest ↔ reading.Clean statement rest := by
  cases reading <;> simp [Declarer.Clean]

/-- A reading that was stopped leaves a notice, so that a declaration without
notices has been read. -/
theorem exists_clean_of_notices {reading : Reader Id (Stmt Unit) (n + 1)}
    (quiet : (ofReader reading).notices = []) :
    ∃ statement, (ofReader reading).Clean statement (ofReader reading).rest := by
  cases reading with
  | done statement notices rest shorter => exact ⟨statement, rfl, quiet, rfl⟩
  | stuck notices fault rest bound => simp at quiet

/-- More statements behind a declaration are read cleanly if both are. -/
theorem clean_andThen {reading : Reader Id (Stmt Unit) (n + 1)}
    {next : (rest : List Token) → rest.length < n + 1 → Reader Id (List (Stmt Unit)) rest.length}
    {found : List (Stmt Unit)} {rest : List Token} :
    ((ofReader reading).andThen next).Clean found rest ↔
      ∃ statement left, ∃ shorter : left.length < n + 1, ∃ others,
        (ofReader reading).Clean statement left ∧ (next left shorter).Clean others rest ∧
          found = statement :: others := by
  constructor
  · intro clean
    cases second : next (ofReader reading).rest (ofReader reading).shorter with
    | done statements notices left shorter =>
        simp only [andThen_of_done second, clean_done, List.append_eq_nil_iff] at clean
        obtain ⟨rfl, ⟨quiet, rfl⟩, rfl⟩ := clean
        obtain ⟨statement, one⟩ := exists_clean_of_notices quiet
        refine ⟨statement, _, (ofReader reading).shorter, statements, one, ⟨shorter, second⟩, ?_⟩
        rw [one.1, Option.toList_some, List.singleton_append]
    | stuck => simp [andThen_of_stuck second] at clean
  · rintro ⟨statement, _, _, others, ⟨one, quiet, rfl⟩, ⟨shorter, second⟩, rfl⟩
    simp [andThen_of_done second, one, quiet]

end Declarer

/-- What a declaration is followed by is read behind it. -/
theorem clean_declaration_andThen {trailing : Bool} {first : Token} {tokens : List Token}
    {next : (rest : List Token) → rest.length < tokens.length + 1 →
      Reader Id (List (Stmt Unit)) rest.length}
    {found : List (Stmt Unit)} {rest : List Token} :
    ((declaration trailing first tokens).andThen next).Clean found rest ↔
      ∃ statement left, ∃ shorter : left.length < tokens.length + 1, ∃ others,
        (declaration trailing first tokens).Clean statement left ∧
          (next left shorter).Clean others rest ∧ found = statement :: others := by
  rw [declaration]
  exact Declarer.clean_andThen

end Lox
