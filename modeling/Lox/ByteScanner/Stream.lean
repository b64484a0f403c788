/-
# The items of a stream, one call after the other

A call of a scanner reads lexemes until one of them gives an item.  Every lexeme has at
least one byte, whatever text is read and however one searches in it, so each round
starts further on than the one before it, and a call comes to an end.
-/

import Lox.ByteScanner

namespace Lox

namespace ByteScanner

/-- The lexeme starts at a place, and its first byte has been read. -/
def IsPast (start : Nat) (scanner : ByteScanner) : Prop :=
  scanner.start = start ∧ start < scanner.place

/-- Whatever is read without a breach has a property. -/
def Ensures {α : Type} (ok : α → Prop) (reading : Except Breach α) : Prop :=
  ∀ value, reading = .ok value → ok value

section

variable {α β : Type} {search : Text.ByteSearch} {source : String} {start : Nat}
  {scanner : ByteScanner}

theorem Ensures.pure {ok : α → Prop} {value : α} (holds : ok value) :
    Ensures ok (.ok value) := by
  rintro _ ⟨⟩
  exact holds

theorem Ensures.bind {first : α → Prop} {second : β → Prop} {reading : Except Breach α}
    {next : α → Except Breach β} (before : Ensures first reading)
    (behind : ∀ value, first value → Ensures second (next value)) :
    Ensures second (reading >>= next) := by
  cases reading with
  | error => rintro _ ⟨⟩
  | ok value => exact behind value (before value rfl)

/-- What is read first need not have any property. -/
theorem Ensures.pass {second : β → Prop} {reading : Except Breach α}
    {next : α → Except Breach β} (behind : ∀ value, Ensures second (next value)) :
    Ensures second (reading >>= next) :=
  @Ensures.bind _ _ (fun _ => True) _ _ _ (fun _ _ => trivial) fun value _ => behind value

/-! ## A lexeme has at least one byte -/

theorem isPast_advance (past : scanner.IsPast start) :
    Ensures (IsPast start ·.2) (scanner.advance source) := by
  rintro ⟨byte, next⟩ read
  obtain ⟨-, rfl⟩ := advance_eq_ok read
  exact ⟨past.1, Nat.lt_succ_of_lt past.2⟩

theorem isPast_accept (past : scanner.IsPast start) (expected : Char) :
    Ensures (IsPast start ·.2) (scanner.accept source expected) := by
  unfold accept
  split
  · exact (isPast_advance past).bind fun _ later => .pure later
  · exact .pure past

theorem isPast_advanceWhile (past : scanner.IsPast start) (goesOn : Char → Bool) :
    Ensures (IsPast start) (scanner.advanceWhile source goesOn) := by
  fun_induction advanceWhile source goesOn scanner with
  | case1 scanner _ byte next read ih => exact ih (isPast_advance past _ read)
  | case2 => rintro _ ⟨⟩
  | case3 => exact .pure past

theorem isPast_advanceToQuote (past : scanner.IsPast start) :
    Ensures (IsPast start) (scanner.advanceToQuote source) := by
  fun_induction advanceToQuote source scanner with
  | case1 scanner _ byte next read ih =>
      have later := isPast_advance past _ read
      exact ih (by split <;> exact later)
  | case2 => rintro _ ⟨⟩
  | case3 => exact .pure past

/-- Bytes are taken between places in order. -/
theorem le_of_bytesBetween (first last : Nat) :
    Ensures (fun _ => first ≤ last) (bytesBetween source first last) := by
  rintro bytes taken
  rw [bytesBetween, Text.bytesBetween?] at taken
  split at taken
  · next found =>
      split at found
      · next ordered => exact ordered.1
      · cases found
  · cases taken

theorem isPast_lineComment (past : scanner.IsPast start) :
    Ensures (IsPast start ·.2) (scanner.lineComment search source) := by
  refine (le_of_bytesBetween _ _).bind fun behind inside => ?_
  split
  · exact .pure ⟨past.1, Nat.lt_add_right _ past.2⟩
  · exact .pure ⟨past.1, Nat.lt_of_lt_of_le past.2 inside⟩

theorem isPast_blockComment (past : scanner.IsPast start) :
    Ensures (IsPast start ·.2) (scanner.blockComment search source) := by
  refine (le_of_bytesBetween _ _).bind fun behind inside => ?_
  split
  · exact .pass fun _ => .pure ⟨past.1, Nat.lt_add_right _ (Nat.lt_add_right _ past.2)⟩
  · exact .pure ⟨past.1, Nat.lt_of_lt_of_le past.2 inside⟩

theorem isPast_slash (past : scanner.IsPast start) :
    Ensures (IsPast start ·.2) (scanner.slash search source) := by
  refine (isPast_accept past '/').bind ?_
  rintro ⟨_ | _, scanner⟩ past
  · refine (isPast_accept past '*').bind ?_
    rintro ⟨_ | _, scanner⟩ past
    · exact .pure past
    · exact isPast_blockComment past
  · exact isPast_lineComment past

theorem isPast_string (past : scanner.IsPast start) :
    Ensures (IsPast start ·.2) (scanner.string source) := by
  refine (isPast_advanceToQuote past).bind fun scanner past => ?_
  split
  · exact .pure past
  · exact (isPast_advance past).bind fun _ past => .pass fun _ => .pure past

theorem isPast_fraction (past : scanner.IsPast start) :
    Ensures (IsPast start) (scanner.fraction source) := by
  unfold fraction
  split
  · exact (isPast_advance past).bind fun _ past => isPast_advanceWhile past _
  · exact .pure past

theorem isPast_numeral (past : scanner.IsPast start) :
    Ensures (IsPast start ·.2) (scanner.numeral source) :=
  .pass fun _ => .pure past

theorem isPast_number (past : scanner.IsPast start) :
    Ensures (IsPast start ·.2) (scanner.number source) :=
  (isPast_advanceWhile past _).bind fun _ past =>
    (isPast_fraction past).bind fun _ past => isPast_numeral past

theorem isPast_word (past : scanner.IsPast start) :
    Ensures (IsPast start ·.2) (scanner.word source) :=
  (isPast_advanceWhile past _).bind fun _ past => .pass fun _ => .pure past

theorem isPast_unexpected (past : scanner.IsPast start) :
    Ensures (IsPast start ·.2) (scanner.unexpected source) :=
  .pass fun _ => .pure ⟨past.1, past.1 ▸ Nat.lt_add_of_pos_right (Char.utf8Size_pos _)⟩

theorem isPast_comparison (past : scanner.IsPast start) (alone beforeEqual : Symbol) :
    Ensures (IsPast start ·.2) (scanner.comparison source alone beforeEqual) :=
  (isPast_accept past '=').bind fun _ past => .pure past

theorem isPast_behindFirst (past : scanner.IsPast start) (first : Char) :
    Ensures (IsPast start ·.2) (scanner.behindFirst search source first) := by
  unfold behindFirst
  split
  · exact .pure past
  split
  · exact .pure past
  split
  · exact isPast_word past
  split
  · exact isPast_number past
  split
  · exact isPast_string past
  split
  · exact isPast_slash past
  split
  · exact .pure past
  · exact isPast_comparison past _ _
  · exact isPast_unexpected past

/-- Behind a lexeme the place is another one than in front of it. -/
theorem isPast_lexeme (starts : scanner.start = scanner.place) :
    Ensures (IsPast scanner.place ·.2) (scanner.lexeme search source) := by
  have past : Ensures (IsPast scanner.place ·.2) (scanner.advance source) := by
    rintro ⟨byte, next⟩ read
    obtain ⟨-, rfl⟩ := advance_eq_ok read
    exact ⟨starts, Nat.lt_succ_self _⟩
  exact past.bind fun _ past => isPast_behindFirst past _

end

section

variable (search : Text.ByteSearch) (source : String)

/-- One round of a call: the mark at the end of the text, or else a lexeme with the item
that it gives. -/
def round (scanner : ByteScanner) : Except Breach (Option StreamItem × ByteScanner) :=
  if scanner.place = source.utf8ByteSize then
    .ok (some (.token (.atEnd scanner.line)), { scanner with place := scanner.place + 1 })
  else do
    let started : ByteScanner := { scanner with start := scanner.place, pending := none }
    let (error?, scanner) ← started.lexeme search source
    match error?, scanner.pending with
    | some error, _ => return (some error, scanner)
    | none, some kind =>
      let text ← piece source scanner.start scanner.place
      return (some (.token ⟨kind, text, scanner.line⟩), { scanner with pending := none })
    | none, none => return (none, scanner)

/-- Every round goes on, whatever it reads. -/
theorem lt_place_of_round (scanner : ByteScanner) :
    Ensures (scanner.place < ·.2.place) (scanner.round search source) := by
  unfold round
  split
  · exact .pure (Nat.lt_succ_self _)
  · refine (isPast_lexeme rfl).bind ?_
    rintro ⟨error?, later⟩ past
    dsimp only
    split
    · exact .pure past.2
    · exact .pass fun _ => .pure past.2
    · exact .pure past.2

/-- One call: rounds up to the first one that gives an item.  Behind the mark at the end
there are no more items, and nothing changes. -/
def next (scanner : ByteScanner) : Except Breach (Option StreamItem × ByteScanner) :=
  if scanner.place ≤ source.utf8ByteSize then
    match _ : scanner.round search source with
    | .ok (some item, later) => .ok (some item, later)
    | .ok (none, later) => next later
    | .error breach => .error breach
  else .ok (none, scanner)
termination_by source.utf8ByteSize + 1 - scanner.place
decreasing_by
  have further : scanner.place < later.place := lt_place_of_round search source scanner _ ‹_›
  omega

/-- The scanner behind so many calls. -/
def afterCalls : Nat → Except Breach ByteScanner
  | 0 => .ok initial
  | calls + 1 => do
    let scanner ← afterCalls calls
    let (_, scanner) ← scanner.next search source
    return scanner

/-- The answer to a call, counted from zero. -/
def answer? (call : Nat) : Except Breach (Option StreamItem) := do
  let scanner ← afterCalls search source call
  let (item?, _) ← scanner.next search source
  return item?

/-- The scanners with which a round starts, from the first call on. -/
inductive Reached : ByteScanner → Prop where
  | initial : Reached initial
  | round {scanner later : ByteScanner} {item? : Option StreamItem} (reached : Reached scanner)
      (goesOn : scanner.place ≤ source.utf8ByteSize)
      (comesTo : scanner.round search source = .ok (item?, later)) : Reached later

end

end ByteScanner

end Lox
