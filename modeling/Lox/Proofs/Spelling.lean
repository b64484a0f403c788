/-
# What spells a token

For each kind of token this module says which texts spell it, and shows that
cutting a text is the inverse of spelling: a segment that is a token spells
its kind, and a text that spells a kind is cut off in one piece, wherever the
text behind it does not go on with it.

What may not stand behind a text depends on its kind.  A word ends in front of
anything that is no part of a word, a number also where a point is not
followed by a digit, and a symbol wherever the next character would make it
a longer symbol or a comment.
-/

import Mathlib.Tactic.ByContra
import Lox.Reading.Program
import Lox.Proofs.Number.Decimal

namespace Lox

/-- A text spells a token of a kind. -/
inductive Spelled : TokenKind → List Char → Prop where
  | symbol (symbol : Symbol) : Spelled (.symbol symbol) symbol.spelling.toList
  | keyword (keyword : Keyword) : Spelled (.keyword keyword) keyword.spelling.toList
  | identifier {first : Char} {rest : List Char} (starts : isWordStart first = true)
      (parts : ∀ character ∈ rest, isWordPart character = true)
      (own : Keyword.ofSpelling? (String.ofList (first :: rest)) = none) :
      Spelled .identifier (first :: rest)
  | string {inside : List Char} (open' : '"' ∉ inside) :
      Spelled (.string (String.ofList inside)) ('"' :: (inside ++ ['"']))
  | number {text whole fraction : List Char} (spells : Decimal.Spells text whole fraction) :
      Spelled (.number (Cut.numberValue whole fraction)) text

/-- A character is a symbol, or starts one or a comment, that starts with the
symbol in front of it. -/
def Symbol.GoesOn : Symbol → Char → Prop
  | bang, character => character = '='
  | equal, character => character = '='
  | less, character => character = '='
  | greater, character => character = '='
  | slash, character => character = '/' ∨ character = '*'
  | _, _ => False

/-- A text that spells a token of the kind ends in front of this one. -/
def TokenKind.EndsBefore : TokenKind → List Char → Prop
  | .symbol known, rest => ∀ character ∈ rest.head?, ¬ known.GoesOn character
  | .keyword _, rest => ∀ character ∈ rest.head?, isWordPart character = false
  | .identifier, rest => ∀ character ∈ rest.head?, isWordPart character = false
  | .number _, rest =>
    (∀ character ∈ rest.head?, character.isDigit = false) ∧ Cut.fraction? rest = none
  | _, _ => True

/-- Every token ends in front of a blank. -/
theorem endsBefore_blank (kind : TokenKind) (rest : List Char) : kind.EndsBefore (' ' :: rest) := by
  have noWord : ∀ character ∈ (' ' :: rest).head?, isWordPart character = false := by
    intro character first
    cases first
    decide
  cases kind with
  | symbol symbol => cases symbol <;> simp [TokenKind.EndsBefore, Symbol.GoesOn]
  | keyword => exact noWord
  | identifier => exact noWord
  | number value => exact ⟨by simp, rfl⟩
  | _ => trivial

theorem of_mem_takeWhile {α : Type} {p : α → Bool} {row : List α} {element : α}
    (member : element ∈ row.takeWhile p) : p element = true :=
  List.all_eq_true.1 List.all_takeWhile element member

/-- The characters in front of the first one without a property. -/
theorem span_of_head {p : Char → Bool} {inside rest : List Char}
    (all : ∀ character ∈ inside, p character = true)
    (stops : ∀ character ∈ rest.head?, p character = false) :
    (inside ++ rest).takeWhile p = inside ∧ (inside ++ rest).dropWhile p = rest := by
  have none : rest.takeWhile p = [] ∧ rest.dropWhile p = rest := by
    cases rest with
    | nil => exact ⟨rfl, rfl⟩
    | cons first rest =>
        have first := stops first rfl
        simp [first]
  rw [List.takeWhile_append_of_pos all, List.dropWhile_append_of_pos all, none.1, none.2,
    List.append_nil]
  exact ⟨rfl, rfl⟩

/-- Every character of a text is another one than a character that is not in it. -/
theorem forall_ne_of_not_mem {stop : Char} {inside : List Char} (absent : stop ∉ inside) :
    ∀ character ∈ inside, decide (character ≠ stop) = true := by
  intro character member
  rw [decide_eq_true_eq]
  rintro rfl
  exact absent member

theorem ofSpelling?_spelling (keyword : Keyword) :
    Keyword.ofSpelling? keyword.spelling = some keyword := by
  cases keyword <;> decide

theorem spelling_of_ofSpelling? {word : String} {keyword : Keyword}
    (found : Keyword.ofSpelling? word = some keyword) : keyword.spelling = word := by
  simpa using List.find?_some found

/-- A reserved word is spelled like any other word. -/
theorem spelling_word (keyword : Keyword) :
    ∃ first rest, keyword.spelling.toList = first :: rest ∧ isWordStart first = true ∧
      ∀ character ∈ rest, isWordPart character = true := by
  cases keyword <;> exact ⟨_, _, rfl, by decide, List.all_eq_true.1 (by decide)⟩

namespace Cut

/-- If the segment of a cut is a token, its text spells it. -/
def Spells (cut : Cut) : Prop :=
  ∀ kind, cut.segment.kind = .token kind → Spelled kind cut.segment.text

theorem spells_ofToken {text : List Char} {kind : TokenKind} {rest : List Char}
    (spelled : Spelled kind text) : (ofToken text kind rest).Spells := by
  intro other isToken
  cases isToken
  exact spelled

theorem spells_word {first : Char} (starts : isWordStart first = true) (rest : List Char) :
    (word first rest).Spells := by
  rw [word]
  apply spells_ofToken
  split
  · next keyword found =>
      have same := congrArg String.toList (spelling_of_ofSpelling? found)
      rw [String.toList_ofList] at same
      rw [← same]
      exact .keyword keyword
  · next none => exact .identifier starts (fun character member => of_mem_takeWhile member) none

theorem isDigits_takeWhile {first : Char} (starts : first.isDigit = true) (rest : List Char) :
    Decimal.IsDigits (first :: rest.takeWhile Char.isDigit) :=
  ⟨List.cons_ne_nil _ _,
    List.forall_mem_cons.2 ⟨starts, fun _ member => of_mem_takeWhile member⟩⟩

theorem isDigits_fraction? {text fraction rest : List Char}
    (found : fraction? text = some (fraction, rest)) : Decimal.IsDigits fraction := by
  unfold fraction? at found
  split at found
  · next digit tail =>
      split at found
      · next isDigit =>
          simp only [Option.some.injEq, Prod.mk.injEq] at found
          rw [← found.1]
          exact isDigits_takeWhile isDigit tail
      · cases found
  · cases found

theorem spells_number {first : Char} (starts : first.isDigit = true) (rest : List Char) :
    (number first rest).Spells := by
  have digits := isDigits_takeWhile starts rest
  simp only [number]
  split
  · next found => exact spells_ofToken (.number (.fraction digits (isDigits_fraction? found)))
  · exact spells_ofToken (.number (.whole digits))

theorem spells_string (rest : List Char) : (string rest).Spells := by
  simp only [string]
  split
  · next quote behind found =>
      have isQuote : quote = '"' := by
        have first := List.head?_dropWhile_not (· ≠ '"') rest
        rw [found] at first
        simpa using first
      rw [isQuote]
      apply spells_ofToken
      apply Spelled.string
      intro member
      simpa using of_mem_takeWhile member
  · intro kind isToken
    cases isToken

theorem spells_slash (rest : List Char) : (slash rest).Spells := by
  unfold slash
  split
  · intro kind isToken
    cases isToken
  · split
    · intro kind isToken
      cases isToken
    · intro kind isToken
      cases isToken
  · exact spells_ofToken (.symbol .slash)

theorem spells_comparison {first : Char} {alone beforeEqual : Symbol}
    (known : Symbol.ofComparison? first = some (alone, beforeEqual)) (rest : List Char) :
    (comparison first alone beforeEqual rest).Spells := by
  have spelling : alone.spelling.toList = [first] ∧ beforeEqual.spelling.toList = [first, '='] := by
    unfold Symbol.ofComparison? at known
    split at known <;> first | contradiction | (cases known; exact ⟨rfl, rfl⟩)
  unfold comparison
  split
  · apply spells_ofToken
    rw [← spelling.2]
    exact .symbol beforeEqual
  · apply spells_ofToken
    rw [← spelling.1]
    exact .symbol alone

theorem spelling_ofCharacter? {first : Char} {symbol : Symbol}
    (known : Symbol.ofCharacter? first = some symbol) : symbol.spelling.toList = [first] := by
  unfold Symbol.ofCharacter? at known
  split at known <;> first | contradiction | (cases known; rfl)

end Cut

/-- A segment that is a token spells its kind. -/
theorem spells_cut (first : Char) (rest : List Char) : (cut first rest).Spells := by
  unfold cut
  split
  · intro kind isToken
    cases isToken
  split
  · next starts => exact Cut.spells_word starts rest
  split
  · next starts => exact Cut.spells_number starts rest
  split
  · exact Cut.spells_string rest
  split
  · exact Cut.spells_slash rest
  split
  · next known =>
      apply Cut.spells_ofToken
      rw [← Cut.spelling_ofCharacter? known]
      exact .symbol _
  · next known => exact Cut.spells_comparison known rest
  · intro kind isToken
    cases isToken

namespace Cut

/-- In front of no `=` a character spells its symbol alone. -/
theorem comparison_alone {first : Char} {alone beforeEqual : Symbol} {rest : List Char}
    (ends : ∀ character ∈ rest.head?, character ≠ '=') :
    comparison first alone beforeEqual rest = ofToken [first] (.symbol alone) rest := by
  unfold comparison
  split
  · next more => exact absurd rfl (ends '=' rfl)
  · rfl

/-- In front of no slash and no star a slash is just a slash. -/
theorem slash_alone {rest : List Char}
    (ends : ∀ character ∈ rest.head?, ¬ (character = '/' ∨ character = '*')) :
    slash rest = ofToken ['/'] (.symbol .slash) rest := by
  unfold slash
  split
  · exact absurd (.inl rfl) (ends '/' rfl)
  · exact absurd (.inr rfl) (ends '*' rfl)
  · rfl

end Cut

theorem not_isBlank {first : Char} (part : isWordPart first = true) :
    Cut.isBlank first = false := by
  by_contra blank
  rw [Bool.not_eq_false, Cut.isBlank] at blank
  simp only [Bool.or_eq_true, decide_eq_true_eq] at blank
  rcases blank with ((rfl | rfl) | rfl) | rfl <;> exact absurd part (by decide)

theorem not_isWordStart {first : Char} (digit : first.isDigit = true) :
    isWordStart first = false := by
  have underscore : first ≠ '_' := by
    rintro rfl
    exact absurd digit (by decide)
  have letter : first.isAlpha =
      (decide ('A'.val ≤ first.val ∧ first.val ≤ 'Z'.val) ||
        (decide ('a'.val ≤ first.val) && decide (first.val ≤ 'z'.val))) := rfl
  simp only [isWordStart, underscore, decide_false, Bool.or_false, letter]
  simp only [Char.isDigit, ge_iff_le, Bool.and_eq_true, decide_eq_true_eq, Bool.or_eq_false_iff,
    Bool.and_eq_false_iff, decide_eq_false_iff_not, UInt32.le_iff_toNat_le, not_and] at digit ⊢
  have nine : '9'.val.toNat = 57 := rfl
  have upper : 'A'.val.toNat = 65 := rfl
  have lower : 'a'.val.toNat = 97 := rfl
  omega

theorem cut_word {first : Char} (starts : isWordStart first = true) (rest : List Char) :
    cut first rest = Cut.word first rest := by
  have noBlank : Cut.isBlank first = false := not_isBlank (by rw [isWordPart, starts, Bool.true_or])
  rw [cut, noBlank, if_neg Bool.false_ne_true, if_pos starts]

theorem cut_number {first : Char} (starts : first.isDigit = true) (rest : List Char) :
    cut first rest = Cut.number first rest := by
  have noBlank : Cut.isBlank first = false := not_isBlank (by rw [isWordPart, starts, Bool.or_true])
  rw [cut, noBlank, if_neg Bool.false_ne_true, not_isWordStart starts, if_neg Bool.false_ne_true,
    if_pos starts]

/-- A fraction is found behind its point. -/
theorem fraction?_of_digits {fraction rest : List Char} (areDigits : Decimal.IsDigits fraction)
    (stops : ∀ character ∈ rest.head?, character.isDigit = false) :
    Cut.fraction? ('.' :: (fraction ++ rest)) = some (fraction, rest) := by
  obtain ⟨some, all⟩ := areDigits
  cases fraction with
  | nil => exact absurd rfl some
  | cons digit more =>
      obtain ⟨isDigit, all⟩ := List.forall_mem_cons.1 all
      have spans := span_of_head all stops
      rw [List.cons_append, Cut.fraction?, if_pos isDigit, spans.1, spans.2]

/-- A number is cut off with its fraction, if it has one. -/
theorem cut_spells {text whole fraction rest : List Char}
    (spells : Decimal.Spells text whole fraction)
    (stops : ∀ character ∈ rest.head?, character.isDigit = false)
    (noPoint : Cut.fraction? rest = none) :
    ∃ first more, text = first :: more ∧ cut first (more ++ rest) =
      ⟨⟨text, .token (.number (Cut.numberValue whole fraction))⟩, rest⟩ := by
  cases spells with
  | whole areDigits =>
      obtain ⟨some, all⟩ := areDigits
      cases text with
      | nil => exact absurd rfl some
      | cons digit more =>
          obtain ⟨isDigit, all⟩ := List.forall_mem_cons.1 all
          have spans := span_of_head all stops
          refine ⟨digit, more, rfl, ?_⟩
          rw [cut_number isDigit, Cut.number, spans.1, spans.2]
          simp only [noPoint]
          rfl
  | fraction areDigits areMore =>
      obtain ⟨some, all⟩ := areDigits
      cases whole with
      | nil => exact absurd rfl some
      | cons digit more =>
          obtain ⟨isDigit, all⟩ := List.forall_mem_cons.1 all
          have point :
              ∀ character ∈ ('.' :: (fraction ++ rest)).head?, character.isDigit = false := by
            simp
          have spans := span_of_head all point
          have found := fraction?_of_digits areMore stops
          refine ⟨digit, more ++ '.' :: fraction, rfl, ?_⟩
          rw [List.append_assoc, List.cons_append, cut_number isDigit, Cut.number, spans.1, spans.2]
          simp only [found]
          rfl

/-- A symbol is cut off where the next character does not go on with it. -/
theorem cut_symbol (symbol : Symbol) {rest : List Char}
    (ends : ∀ character ∈ rest.head?, ¬ symbol.GoesOn character) :
    ∃ first more, symbol.spelling.toList = first :: more ∧
      cut first (more ++ rest) = ⟨⟨symbol.spelling.toList, .token (.symbol symbol)⟩, rest⟩ := by
  cases symbol with
  | bang => exact ⟨_, _, rfl, Cut.comparison_alone ends⟩
  | equal => exact ⟨_, _, rfl, Cut.comparison_alone ends⟩
  | less => exact ⟨_, _, rfl, Cut.comparison_alone ends⟩
  | greater => exact ⟨_, _, rfl, Cut.comparison_alone ends⟩
  | slash => exact ⟨_, _, rfl, Cut.slash_alone ends⟩
  | _ => exact ⟨_, _, rfl, rfl⟩

/-- What spells a kind of token is cut off in one piece. -/
theorem cut_of_spelled {kind : TokenKind} {text rest : List Char} (spelled : Spelled kind text)
    (ends : kind.EndsBefore rest) :
    ∃ first more, text = first :: more ∧
      cut first (more ++ rest) = ⟨⟨text, .token kind⟩, rest⟩ := by
  cases spelled with
  | symbol symbol => exact cut_symbol symbol ends
  | keyword keyword =>
      obtain ⟨first, more, same, starts, parts⟩ := spelling_word keyword
      have spans := span_of_head parts ends
      have found := ofSpelling?_spelling keyword
      rw [← String.ofList_toList (s := keyword.spelling), same] at found
      refine ⟨first, more, same, ?_⟩
      rw [cut_word starts, Cut.word, spans.1, spans.2, same]
      simp only [found]
      rfl
  | identifier starts parts own =>
      have spans := span_of_head parts ends
      refine ⟨_, _, rfl, ?_⟩
      rw [cut_word starts, Cut.word, spans.1, spans.2]
      simp only [own]
      rfl
  | @string inside noQuote =>
      have stops : ∀ character ∈ ('"' :: rest).head?, decide (character ≠ '"') = false := by
        simp
      have spans := span_of_head (forall_ne_of_not_mem noQuote) stops
      refine ⟨'"', inside ++ ['"'], rfl, ?_⟩
      rw [List.append_assoc, List.cons_append, List.nil_append]
      show Cut.string _ = _
      simp only [Cut.string, spans.1, spans.2]
      rfl
  | number spells => exact cut_spells spells ends.1 ends.2

/-- A token of a text other than the mark at its end is spelled by its lexeme. -/
def Token.WellSpelled (token : Token) : Prop :=
  Spelled token.kind token.lexeme.toList

/-- What spells a token is not empty, so it is no end mark. -/
theorem Token.WellSpelled.isEnd_eq_false {token : Token} (spelled : token.WellSpelled) :
    token.isEnd = false := by
  by_contra isEnd
  rw [Bool.not_eq_false, Token.isEnd, decide_eq_true_eq] at isEnd
  rw [WellSpelled, isEnd] at spelled
  generalize token.lexeme.toList = text at spelled
  cases spelled

theorem wellSpelled_of_item? {first : Char} {rest : List Char} {line : Nat} {token : Token}
    (found : (cut first rest).segment.item? line = some (.token token)) : token.WellSpelled := by
  rw [Segment.item?] at found
  split at found
  · cases found
  · next kind isToken =>
      cases found
      have spelled := spells_cut first rest kind isToken
      rwa [← String.toList_ofList (l := (cut first rest).segment.text)] at spelled
  · cases found

theorem wellSpelled_of_mem_streamFrom {text : List Char} {line : Nat} {token : Token}
    (member : .token token ∈ streamFrom line (segments text)) :
    token.isEnd = true ∨ token.WellSpelled := by
  fun_induction segments text generalizing line with
  | case1 =>
      simp only [streamFrom, List.mem_singleton, StreamItem.token.injEq] at member
      rw [member]
      exact .inl rfl
  | case2 first rest ih =>
      rw [streamFrom] at member
      rcases List.mem_append.1 member with here | later
      · exact .inr (wellSpelled_of_item? (Option.mem_toList.1 here))
      · exact ih later

/-- Every token of a text in front of the mark at its end is well spelled. -/
theorem wellSpelled_of_mem_tokensOf {source : String} {token : Token}
    (member : token ∈ beforeEnd (tokensOf source)) : token.WellSpelled := by
  unfold beforeEnd at member
  have inFront : token.isEnd = false := by
    simpa using of_mem_takeWhile member
  have listed : token ∈ tokensOf source := (List.takeWhile_sublist _).subset member
  obtain ⟨item, scanned, isToken⟩ := List.mem_filterMap.1 listed
  cases item with
  | token found =>
      cases isToken
      rcases wellSpelled_of_mem_streamFrom scanned with isEnd | spelled
      · rw [isEnd] at inFront
        cases inFront
      · exact spelled
  | error => cases isToken

/-! ## Texts that scan to given tokens -/

/-- The token without the line on which it stands; of a number only its value
counts. -/
def Token.word (token : Token) : TokenKind × String :=
  match token.kind with
  | .number value => (.number value, "")
  | kind => (kind, token.lexeme)

/-- In front of a text, this one scans to tokens that are the given ones up to
their lines, and nothing else. -/
def Scans (text : List Char) (tokens : List Token) (rest : List Char) : Prop :=
  ∀ line, ∃ (found : List Token) (line' : Nat), streamFrom line (segments (text ++ rest)) =
    found.map .token ++ streamFrom line' (segments rest) ∧
      found.map Token.word = tokens.map Token.word

theorem Scans.nil (rest : List Char) : Scans [] [] rest :=
  fun line => ⟨[], line, rfl, rfl⟩

theorem Scans.append {text more rest : List Char} {tokens others : List Token}
    (first : Scans text tokens (more ++ rest)) (second : Scans more others rest) :
    Scans (text ++ more) (tokens ++ others) rest := by
  intro line
  obtain ⟨found, line', scanned, same⟩ := first line
  obtain ⟨found', line'', scanned', same'⟩ := second line'
  refine ⟨found ++ found', line'', ?_, ?_⟩
  · rw [List.append_assoc, scanned, scanned', List.map_append, List.append_assoc]
  · rw [List.map_append, List.map_append, same, same']

/-- A blank scans to nothing. -/
theorem Scans.blank (rest : List Char) : Scans [' '] [] rest := by
  intro line
  refine ⟨[], line, ?_, rfl⟩
  have single : cut ' ' rest = ⟨⟨[' '], .blank⟩, rest⟩ := rfl
  rw [List.cons_append, List.nil_append, segments, single]
  rfl

/-- What spells a token scans to it. -/
theorem Scans.spelled {kind : TokenKind} {text rest : List Char} (spelled : Spelled kind text)
    (ends : kind.EndsBefore rest) {token : Token} (same : token.kind = kind)
    (lexeme : token.lexeme = String.ofList text ∨ ∃ value, kind = .number value) :
    Scans text [token] rest := by
  intro line
  obtain ⟨first, more, rfl, single⟩ := cut_of_spelled spelled ends
  refine ⟨[⟨kind, String.ofList (first :: more), line + (first :: more).count '\n'⟩],
    line + (first :: more).count '\n', ?_, ?_⟩
  · rw [List.cons_append, segments, single]
    rfl
  · rw [List.map_singleton, List.map_singleton, Token.word, Token.word, same]
    rcases lexeme with lexeme | ⟨value, rfl⟩
    · rw [lexeme]
    · rfl

theorem Token.WellSpelled.lexeme_eq_of_symbol {token : Token} (spelled : token.WellSpelled)
    {symbol : Symbol} (same : token.kind = .symbol symbol) : token.lexeme = symbol.spelling := by
  rw [Token.WellSpelled, same] at spelled
  apply String.toList_inj.1
  generalize token.lexeme.toList = text at spelled
  cases spelled
  rfl

theorem Token.WellSpelled.lexeme_eq_of_keyword {token : Token} (spelled : token.WellSpelled)
    {keyword : Keyword} (same : token.kind = .keyword keyword) :
    token.lexeme = keyword.spelling := by
  rw [Token.WellSpelled, same] at spelled
  apply String.toList_inj.1
  generalize token.lexeme.toList = text at spelled
  cases spelled
  rfl

theorem Token.WellSpelled.lexeme_eq_of_string {token : Token} (spelled : token.WellSpelled)
    {text : String} (same : token.kind = .string text) :
    token.lexeme = "\"" ++ text ++ "\"" := by
  rw [Token.WellSpelled, same] at spelled
  apply String.toList_inj.1
  generalize token.lexeme.toList = written at spelled
  cases spelled
  simp

/-- What spells a name starts like a word. -/
theorem Token.WellSpelled.starts_of_identifier {token : Token} (spelled : token.WellSpelled)
    (same : token.kind = .identifier) :
    ∃ first rest, token.lexeme.toList = first :: rest ∧ isWordStart first = true := by
  rw [Token.WellSpelled, same] at spelled
  generalize token.lexeme.toList = text at spelled
  cases spelled with
  | identifier starts => exact ⟨_, _, rfl, starts⟩

/-- A name is not spelled like a keyword. -/
theorem Token.WellSpelled.ofSpelling?_lexeme {token : Token} (spelled : token.WellSpelled)
    (same : token.kind = .identifier) : Keyword.ofSpelling? token.lexeme = none := by
  rw [Token.WellSpelled, same] at spelled
  rw [← String.ofList_toList (s := token.lexeme)]
  generalize token.lexeme.toList = text at spelled
  cases spelled with
  | identifier _ _ own => exact own

end Lox
