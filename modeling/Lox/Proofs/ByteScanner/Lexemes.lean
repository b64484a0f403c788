/-
# One lexeme

Behind the first character of a lexeme a scanner reads up to the end of the segment that
is cut off the text there.  For each form of segment this is one statement: nothing is
breached, and the scanner stands behind the characters of the segment, on the line on
which it ends, with the kind of token that it is or the error that it stands for.
-/

import Lox.Proofs.Segmentation
import Lox.Proofs.ByteScanner.Bytes

namespace Lox

open Text (bytesOf IsSmall IsCoarse)

/-- The kind of token that a segment is, if it is one. -/
def SegmentKind.token? : SegmentKind → Option TokenKind
  | .token kind => some kind
  | _ => none

/-- The error that a segment stands for, if it is faulty. -/
def Segment.error? (segment : Segment) (line : Nat) : Option StreamItem :=
  match segment.kind with
  | .faulty fault => some (.error fault line)
  | _ => none

namespace ByteScanner

variable {search : Text.ByteSearch} {source : String} {scanner : ByteScanner}
  {before rest : List Char} {first : Char} {line : Nat}

/-- The scanner has come to the end of the segment that is cut off behind a text. -/
structure HasCut (source : String) (before : List Char) (line : Nat) (cut : Cut)
    (error? : Option StreamItem) (scanner : ByteScanner) : Prop where
  hasRead : HasRead source scanner before cut.segment.text cut.rest
  line : scanner.line = line + cut.segment.newlines
  pending : scanner.pending = cut.segment.kind.token?
  error : error? = cut.segment.error? scanner.line

/-- Reading comes to the end of the segment, without a breach. -/
def CutsOff (source : String) (before : List Char) (line : Nat) (cut : Cut)
    (reading : Except Breach (Option StreamItem × ByteScanner)) : Prop :=
  ∃ error? scanner, reading = .ok (error?, scanner) ∧ HasCut source before line cut error? scanner

theorem ok_bind {α β : Type} (value : α) (next : α → Except Breach β) :
    (Except.ok value >>= next) = next value :=
  rfl

/-! ## Which characters are one byte -/

theorem isSmall_of_isWordPart {character : Char} (part : isWordPart character = true) :
    IsSmall character := by
  have letter : character.isAlpha =
      (decide ('A'.val ≤ character.val ∧ character.val ≤ 'Z'.val) ||
        (decide ('a'.val ≤ character.val) && decide (character.val ≤ 'z'.val))) := rfl
  have digit : character.isDigit =
      (decide ('0'.val ≤ character.val) && decide (character.val ≤ '9'.val)) := rfl
  have last : 'z'.val.toNat = 122 ∧ 'Z'.val.toNat = 90 ∧ '9'.val.toNat = 57 := ⟨rfl, rfl, rfl⟩
  simp only [isWordPart, isWordStart, letter, digit, Bool.or_eq_true, Bool.and_eq_true,
    decide_eq_true_eq, UInt32.le_iff_toNat_le] at part
  rw [IsSmall, Char.toNat]
  rcases part with ((upper | lower) | rfl) | digit
  · omega
  · omega
  · decide
  · omega

theorem isCoarse_isWordPart : IsCoarse isWordPart :=
  Text.isCoarse_of_small fun _ => isSmall_of_isWordPart

theorem isSmall_of_isDigit {character : Char} (digit : character.isDigit = true) :
    IsSmall character :=
  isSmall_of_isWordPart (by rw [isWordPart, digit, Bool.or_true])

theorem isCoarse_isDigit : IsCoarse Char.isDigit :=
  Text.isCoarse_of_small fun _ => isSmall_of_isDigit

/-! ## Words -/

theorem ofBytes?_bytesOf (text : List Char) :
    Keyword.ofBytes? (bytesOf text) = Keyword.ofSpelling? (String.ofList text) := by
  have same (keyword : Keyword) : decide (Text.bytes keyword.spelling = bytesOf text) =
      decide (keyword.spelling = String.ofList text) := by
    rw [decide_eq_decide, ← Text.bytes_inj, Text.bytes_eq (String.ofList text),
      String.toList_ofList]
  simp only [Keyword.ofBytes?, Keyword.ofSpelling?, same]

/-- No newline stands in a row of characters of which none is one. -/
theorem count_newline {text : List Char} (kind : Char → Bool) (other : kind '\n' = false)
    (all : ∀ character ∈ text, kind character = true) : text.count '\n' = 0 := by
  rw [List.count_eq_zero]
  intro member
  rw [all _ member] at other
  cases other

/-- Without a newline the line stays the same. -/
theorem same_line {text : List Char} (noNewline : text.count '\n' = 0) (line : Nat) :
    line = line + text.count '\n' := by
  rw [noNewline, Nat.add_zero]

theorem cutsOff_word (starts : isWordStart first = true)
    (hasRead : HasRead source scanner before [first] rest) :
    CutsOff source before scanner.line (Cut.word first rest) (scanner.word source) := by
  have read := hasRead.pastWhile isWordPart
  have noNewline : (first :: rest.takeWhile isWordPart).count '\n' = 0 :=
    count_newline isWordPart rfl (List.forall_mem_cons.2
      ⟨by rw [isWordPart, starts, Bool.true_or], fun _ member => of_mem_takeWhile member⟩)
  rw [word, hasRead.advanceWhile isCoarse_isWordPart rfl, ok_bind]
  dsimp only
  rw [read.bytesBetween, ok_bind, ofBytes?_bytesOf, List.singleton_append]
  refine ⟨_, _, rfl, ⟨read.whole, read.start, read.place⟩, ?_, ?_, rfl⟩
  · exact same_line noNewline _
  · rw [Cut.word]
    cases Keyword.ofSpelling? (String.ofList (first :: rest.takeWhile isWordPart)) <;> rfl

/-! ## Numbers -/

theorem ofNumeral?_of_spells {text whole fraction : List Char}
    (spells : Decimal.Spells text whole fraction) :
    Decimal.ofNumeral? text = some (.ofDigits whole fraction) := by
  cases spells with
  | whole areDigits =>
      have spans := @span_of_head _ _ [] areDigits.2 (forall_head_nil _)
      rw [List.append_nil] at spans
      rw [Decimal.ofNumeral?, spans.1, spans.2]
      exact if_neg (by simpa using areDigits.1)
  | @fraction _ _ areDigits areMore =>
      have spans := @span_of_head _ _ ('.' :: fraction) areDigits.2 (by simp)
      have all : fraction.all Char.isDigit = true := List.all_eq_true.2 areMore.2
      rw [Decimal.ofNumeral?, spans.1, spans.2]
      exact if_neg (by simp [areDigits.1, areMore.1, all])

/-- A fraction is read where one is found. -/
theorem startsFraction {read : List Char} (hasRead : HasRead source scanner before read rest) :
    (decide (Text.characterOf (scanner.peek source) = '.') &&
      (Text.characterOf (scanner.peekNext source)).isDigit) = (Cut.fraction? rest).isSome := by
  have coarse : IsCoarse fun character => decide (character = '.') :=
    Text.isCoarse_of_small fun character same => by
      rw [of_decide_eq_true same]
      decide
  have peeked := hasRead.peek coarse
  rw [peeked]
  cases rest with
  | nil => rfl
  | cons point rest =>
      by_cases same : point = '.'
      · rw [same] at hasRead ⊢
        rw [hasRead.peekNext isCoarse_isDigit (by decide)]
        cases rest with
        | nil => rfl
        | cons digit rest =>
            rw [Cut.fraction?, List.headD_cons, List.headD_cons]
            cases digit.isDigit <;> rfl
      · rw [List.headD_cons, decide_eq_false same, Bool.false_and, Cut.fraction?]
        · rfl
        · rintro digit more text
          cases text
          exact same rfl

theorem exists_of_fraction? {fraction behind : List Char}
    (found : Cut.fraction? rest = some (fraction, behind)) :
    ∃ more, rest = '.' :: more ∧ fraction = more.takeWhile Char.isDigit ∧
      behind = more.dropWhile Char.isDigit := by
  unfold Cut.fraction? at found
  split at found
  · next digit more =>
      split at found
      · next isDigit =>
          cases found
          refine ⟨digit :: more, rfl, ?_, ?_⟩
          · rw [List.takeWhile_cons_of_pos isDigit]
          · rw [List.dropWhile_cons_of_pos isDigit]
      · cases found
  · cases found

theorem fraction_of_some {read fraction behind : List Char}
    (hasRead : HasRead source scanner before read rest)
    (found : Cut.fraction? rest = some (fraction, behind)) :
    scanner.fraction source = .ok (scanner.past ('.' :: fraction)) ∧
      HasRead source (scanner.past ('.' :: fraction)) before (read ++ '.' :: fraction) behind := by
  have starts := startsFraction hasRead
  rw [found, Option.isSome_some] at starts
  obtain ⟨more, rfl, rfl, rfl⟩ := exists_of_fraction? found
  have point := hasRead.pastOne
  constructor
  · rw [ByteScanner.fraction, if_pos starts, hasRead.advance (by decide), ok_bind]
    dsimp only
    rw [point.advanceWhile isCoarse_isDigit rfl, ← past_append]
    rfl
  · have digits := point.pastWhile Char.isDigit
    rwa [← past_append, List.append_assoc] at digits

theorem fraction_of_none {read : List Char} (hasRead : HasRead source scanner before read rest)
    (absent : Cut.fraction? rest = none) : scanner.fraction source = .ok scanner := by
  have starts := startsFraction hasRead
  rw [absent] at starts
  rw [ByteScanner.fraction, starts]
  rfl

theorem count_newline_of_spells {text whole fraction : List Char}
    (spells : Decimal.Spells text whole fraction) : text.count '\n' = 0 := by
  cases spells with
  | whole areDigits => exact count_newline Char.isDigit rfl areDigits.2
  | fraction areDigits areMore =>
      rw [List.count_append, List.count_cons_of_ne (by decide),
        count_newline Char.isDigit rfl areDigits.2, count_newline Char.isDigit rfl areMore.2]

/-- The value of a number is read off its text. -/
theorem cutsOff_numeral {read whole fraction : List Char}
    (spells : Decimal.Spells read whole fraction)
    (hasRead : HasRead source scanner before read rest) :
    CutsOff source before scanner.line
      (Cut.ofToken read (.number (Cut.numberValue whole fraction)) rest)
      (scanner.numeral source) := by
  rw [numeral, hasRead.piece, ok_bind, String.toList_ofList, ofNumeral?_of_spells spells]
  exact ⟨_, _, rfl, ⟨hasRead.whole, hasRead.start, hasRead.place⟩,
    same_line (count_newline_of_spells spells) _, rfl, rfl⟩

theorem cutsOff_number (starts : first.isDigit = true)
    (hasRead : HasRead source scanner before [first] rest) :
    CutsOff source before scanner.line (Cut.number first rest) (scanner.number source) := by
  have whole := hasRead.pastWhile Char.isDigit
  have digits := Cut.isDigits_takeWhile starts rest
  rw [number, hasRead.advanceWhile isCoarse_isDigit rfl, ok_bind, Cut.number]
  cases found : Cut.fraction? (rest.dropWhile Char.isDigit) with
  | none =>
      rw [fraction_of_none whole found, ok_bind]
      exact cutsOff_numeral (.whole digits) whole
  | some parts =>
      obtain ⟨fraction, behind⟩ := parts
      obtain ⟨read, hasRead⟩ := fraction_of_some whole found
      rw [read, ok_bind]
      exact cutsOff_numeral (.fraction digits (Cut.isDigits_fraction? found)) hasRead

/-! ## Up to a character, or else up to the end -/

theorem span_before {stop : Char} {inside : List Char} (absent : stop ∉ inside)
    (behind : List Char) :
    (inside ++ stop :: behind).takeWhile (· ≠ stop) = inside ∧
      (inside ++ stop :: behind).dropWhile (· ≠ stop) = stop :: behind :=
  span_of_head (forall_ne_of_not_mem absent) (by rintro _ ⟨⟩; simp)

theorem span_without {stop : Char} {text : List Char} (absent : stop ∉ text) :
    text.takeWhile (· ≠ stop) = text ∧ text.dropWhile (· ≠ stop) = [] := by
  have spans := @span_of_head _ text [] (forall_ne_of_not_mem absent) (forall_head_nil _)
  rwa [List.append_nil] at spans

/-! ## Strings -/

theorem string_closed {inside : List Char} (absent : '"' ∉ inside) (behind : List Char) :
    Cut.string (inside ++ '"' :: behind) =
      Cut.ofToken ('"' :: inside ++ ['"']) (.string (String.ofList inside)) behind := by
  simp only [Cut.string, span_before absent behind]

theorem string_open (absent : '"' ∉ rest) :
    Cut.string rest = ⟨⟨'"' :: rest, .faulty .unterminatedString⟩, []⟩ := by
  simp only [Cut.string, span_without absent]

theorem cutsOff_string (fresh : scanner.pending = none)
    (hasRead : HasRead source scanner before ['"'] rest) :
    CutsOff source before scanner.line (Cut.string rest) (scanner.string source) := by
  have read : HasRead source (scanner.pastCounting (rest.takeWhile isUnquoted)) before
      ('"' :: rest.takeWhile isUnquoted) (rest.dropWhile isUnquoted) :=
    (hasRead.pastWhile isUnquoted).congr rfl rfl
  rw [string, hasRead.advanceToQuote, ok_bind]
  by_cases closed : '"' ∈ rest
  · obtain ⟨inside, behind, rfl, absent⟩ := List.eq_append_cons_of_mem closed
    obtain ⟨taken, left⟩ : (inside ++ '"' :: behind).takeWhile isUnquoted = inside ∧
        (inside ++ '"' :: behind).dropWhile isUnquoted = '"' :: behind := span_before absent behind
    rw [taken, left] at read
    have whole : HasRead source ((scanner.pastCounting inside).past ['"']) before
        ('"' :: (inside ++ ['"'])) behind := read.pastOne
    have newlines : inside.count '\n' = ('"' :: inside ++ ['"']).count '\n' := by
      simp
    rw [taken, read.isAtEnd, string_closed absent, if_neg (by simp), read.advance (by decide),
      ok_bind]
    dsimp only
    rw [whole.inner (by decide) (by decide), ok_bind]
    exact ⟨_, _, rfl, whole.congr rfl rfl, congrArg (scanner.line + ·) newlines, rfl, rfl⟩
  · obtain ⟨taken, left⟩ : rest.takeWhile isUnquoted = rest ∧ rest.dropWhile isUnquoted = [] :=
      span_without closed
    rw [taken, left] at read
    have newlines : rest.count '\n' = ('"' :: rest).count '\n' := by
      simp
    rw [taken, read.isAtEnd, string_open closed]
    exact ⟨_, _, rfl, read, congrArg (scanner.line + ·) newlines, fresh, rfl⟩

/-! ## Comments -/

/-- A comment of one line is read up to its newline, or up to the end of the text. -/
theorem lineComment_eq_ok {read : List Char} (finds : search.FindsFirst)
    (hasRead : HasRead source scanner before read rest) :
    scanner.lineComment search source =
      .ok (none, scanner.past (rest.takeWhile (· ≠ '\n'))) := by
  rw [lineComment, hasRead.bytesBehind, ok_bind]
  by_cases ends : '\n' ∈ rest
  · obtain ⟨inside, behind, rfl, oneLine⟩ := List.eq_append_cons_of_mem ends
    have found : search.byte? '\n'.toUInt8 (bytesOf (inside ++ '\n' :: behind)) =
        some (bytesOf inside).length := by
      rw [Text.bytesOf_append, Text.bytesOf_cons, Text.utf8EncodeChar_of_small (by decide)]
      exact finds.byte?_append fun member =>
        oneLine (Text.mem_of_mem_bytesOf (by decide) member)
    rw [found, (span_before oneLine behind).1]
    rfl
  · have absent : '\n'.toUInt8 ∉ bytesOf rest := fun member =>
      ends (Text.mem_of_mem_bytesOf (by decide) member)
    rw [finds.byte?_eq_none absent, (span_without ends).1, hasRead.remains.size]
    rfl

theorem cutsOff_lineComment (finds : search.FindsFirst) (fresh : scanner.pending = none)
    (hasRead : HasRead source scanner before ['/', '/'] rest) :
    CutsOff source before scanner.line (Cut.slash ('/' :: rest))
      (scanner.lineComment search source) := by
  have noNewline : (rest.takeWhile (· ≠ '\n')).count '\n' = 0 :=
    count_newline (fun character => decide (character ≠ '\n')) rfl fun _ => of_mem_takeWhile
  have counted : ('/' :: '/' :: rest.takeWhile (· ≠ '\n')).count '\n' = 0 := by
    rw [List.count_cons_of_ne (by decide), List.count_cons_of_ne (by decide), noNewline]
  exact ⟨_, _, lineComment_eq_ok finds hasRead, hasRead.pastWhile _,
    same_line counted _, fresh, rfl⟩

/-- No end of a comment stands in front of the first one. -/
theorem prefix_of_ends {body earlier behind : List Char} (first : ¬ ['*', '/'] <:+: body)
    (ends : earlier ++ ['*', '/'] <+: body ++ ['*', '/'] ++ behind) : body <+: earlier := by
  have inFront : earlier <+: body ++ (['*', '/'] ++ behind) :=
    List.append_assoc _ _ _ ▸ (List.prefix_append _ _).trans ends
  rcases List.prefix_or_prefix_of_prefix inFront (List.prefix_append _ _) with short | long
  · obtain ⟨more, rfl⟩ := short
    rw [List.append_assoc, List.append_assoc, List.prefix_append_right_inj] at ends
    -- A star and a slash cannot both be the character behind `earlier`.
    cases more with
    | nil => rw [List.append_nil]
    | cons star more =>
        rw [List.cons_append, List.cons_prefix_cons] at ends
        cases more with
        | nil => cases (List.cons_prefix_cons.1 ends.2).1
        | cons slash more =>
            rw [List.cons_append, List.cons_prefix_cons] at ends
            obtain ⟨rfl, rfl, -⟩ := ends
            exact (first ⟨earlier, more, by simp⟩).elim
  · exact long

theorem cutsOff_blockComment (finds : search.FindsFirst) (fresh : scanner.pending = none)
    (hasRead : HasRead source scanner before ['/', '*'] rest) :
    CutsOff source before scanner.line (Cut.slash ('*' :: rest))
      (scanner.blockComment search source) := by
  have ending : ['*'.toUInt8, '/'.toUInt8] = bytesOf ['*', '/'] := rfl
  have small : ∀ character ∈ ['*', '/'], IsSmall character :=
    List.forall_mem_cons.2 ⟨by decide, List.forall_mem_singleton.2 (by decide)⟩
  rw [blockComment, hasRead.bytesBehind, ok_bind, ending, Cut.slash]
  cases found : Cut.throughCommentEnd? rest with
  | none =>
      have newlines : ('/' :: '*' :: rest).count '\n' = rest.count '\n' := by
        simp
      rw [finds.row?_eq_none small (Cut.throughCommentEnd?_eq_none.1 found)]
      dsimp only
      rw [finds.count_eq, Text.count_bytesOf (by decide), hasRead.remains.size]
      exact ⟨_, _, rfl, hasRead.pastAll.congr rfl rfl,
        congrArg (scanner.line + ·) newlines.symm, fresh, rfl⟩
  | some parts =>
      obtain ⟨inside, behind⟩ := parts
      obtain ⟨body, rfl, first⟩ := Cut.of_throughCommentEnd?_eq_some found
      obtain rfl := Cut.text_throughCommentEnd? found
      have newlines : ('/' :: '*' :: (body ++ ['*', '/'])).count '\n' = body.count '\n' := by
        simp
      have whole : HasRead source (scanner.past (body ++ ['*', '/'])) before
          (['/', '*'] ++ (body ++ ['*', '/'])) behind := hasRead.past
      have place : scanner.place + (bytesOf body).length + 2 =
          (scanner.past (body ++ ['*', '/'])).place := by
        rw [past_append]
        rfl
      rw [finds.row?_append small fun earlier => prefix_of_ends first]
      dsimp only
      rw [List.append_assoc] at hasRead
      rw [hasRead.bytesAhead, ok_bind, finds.count_eq, Text.count_bytesOf (by decide)]
      exact ⟨_, _, rfl, whole.congr rfl place, congrArg (scanner.line + ·) newlines.symm,
        fresh, rfl⟩

theorem cutsOff_slash (finds : search.FindsFirst) (fresh : scanner.pending = none)
    (hasRead : HasRead source scanner before ['/'] rest) :
    CutsOff source before scanner.line (Cut.slash rest) (scanner.slash search source) := by
  by_cases ofLine : rest.head? = some '/'
  · obtain ⟨more, rfl⟩ := List.head?_eq_some_iff.1 ofLine
    rw [slash, hasRead.accept (by decide), ok_bind]
    exact cutsOff_lineComment finds fresh hasRead.pastOne
  rw [slash, hasRead.accept_other (by decide) ofLine, ok_bind]
  dsimp only
  rw [if_neg Bool.false_ne_true]
  by_cases ofBlock : rest.head? = some '*'
  · obtain ⟨more, rfl⟩ := List.head?_eq_some_iff.1 ofBlock
    rw [hasRead.accept (by decide), ok_bind]
    exact cutsOff_blockComment finds fresh hasRead.pastOne
  · have alone : Cut.slash rest = Cut.ofToken ['/'] (.symbol .slash) rest := by
      rw [Cut.slash]
      · rintro more rfl
        exact ofLine rfl
      · rintro more rfl
        exact ofBlock rfl
    rw [hasRead.accept_other (by decide) ofBlock, ok_bind, alone]
    exact ⟨_, _, rfl, hasRead.congr rfl rfl, rfl, rfl, rfl⟩

/-! ## Operators and other single characters -/

theorem count_single (noNewline : first ≠ '\n') : [first].count '\n' = 0 :=
  List.count_cons_of_ne noNewline

/-- The scanner behind a segment of one character. -/
theorem cutsOff_single {kind : SegmentKind} (noNewline : first ≠ '\n')
    (hasRead : HasRead source scanner before [first] rest) :
    CutsOff source before scanner.line ⟨⟨[first], kind⟩, rest⟩
      (.ok ((Segment.mk [first] kind).error? scanner.line,
        { scanner with pending := kind.token? })) :=
  ⟨_, _, rfl, hasRead.congr rfl rfl, same_line (count_single noNewline) _, rfl, rfl⟩

theorem cutsOff_comparison {alone beforeEqual : Symbol} (noNewline : first ≠ '\n')
    (hasRead : HasRead source scanner before [first] rest) :
    CutsOff source before scanner.line (Cut.comparison first alone beforeEqual rest)
      (scanner.comparison source alone beforeEqual) := by
  by_cases longer : rest.head? = some '='
  · obtain ⟨more, rfl⟩ := List.head?_eq_some_iff.1 longer
    have counted : [first, '='].count '\n' = 0 := by
      rw [List.count_cons_of_ne noNewline]
      exact count_single (by decide)
    rw [comparison, hasRead.accept (by decide), ok_bind]
    exact ⟨_, _, rfl, hasRead.pastOne.congr rfl rfl, same_line counted _, rfl, rfl⟩
  · have short : Cut.comparison first alone beforeEqual rest =
        Cut.ofToken [first] (.symbol alone) rest := by
      rw [Cut.comparison]
      rintro more rfl
      exact longer rfl
    rw [comparison, hasRead.accept_other (by decide) longer, ok_bind, short]
    exact cutsOff_single noNewline hasRead

/-- Wherever the reading of an unexpected character has come to, it ends behind it. -/
theorem cutsOff_unexpected (place : Nat) (noNewline : first ≠ '\n')
    (fresh : scanner.pending = none) (hasRead : HasRead source scanner before [] (first :: rest)) :
    CutsOff source before scanner.line ⟨⟨[first], .faulty (.unexpectedCharacter first)⟩, rest⟩
      (({ scanner with place } : ByteScanner).unexpected source) := by
  have starts : scanner.place = scanner.start := hasRead.place
  have ends : scanner.start + first.utf8Size = (scanner.past [first]).place := by
    rw [past, starts, Text.bytesOf_singleton, String.length_utf8EncodeChar]
  rw [unexpected, hasRead.pieceBehind, ok_bind, String.toList_ofList]
  exact ⟨_, _, rfl, hasRead.pastOne.congr rfl ends,
    same_line (count_single noNewline) _, fresh, rfl⟩

/-! ## Any lexeme -/

/-- A character of one byte starts the same segment for a scanner as for `cut`. -/
theorem cutsOff_behindFirst (finds : search.FindsFirst) (small : IsSmall first)
    (fresh : scanner.pending = none) (hasRead : HasRead source scanner before [] (first :: rest)) :
    CutsOff source before scanner.line (cut first rest)
      ((scanner.past [first]).behindFirst search source first) := by
  have behind : HasRead source (scanner.past [first]) before [first] rest := hasRead.pastOne
  have fresh' : (scanner.past [first]).pending = none := fresh
  -- A newline is one of the blanks, but only a scanner has to tell it from the others.
  by_cases newline : first = '\n'
  · subst newline
    exact ⟨_, _, rfl, behind.congr rfl rfl, rfl, fresh, rfl⟩
  rw [behindFirst, if_neg newline, cut]
  by_cases blank : Cut.isBlank first = true
  · rw [if_pos blank, if_pos blank]
    exact ⟨_, _, rfl, behind, same_line (count_single newline) _, fresh, rfl⟩
  rw [if_neg blank, if_neg blank]
  by_cases startsWord : isWordStart first = true
  · rw [if_pos startsWord, if_pos startsWord]
    exact cutsOff_word startsWord behind
  rw [if_neg startsWord, if_neg startsWord]
  by_cases digit : first.isDigit = true
  · rw [if_pos digit, if_pos digit]
    exact cutsOff_number digit behind
  rw [if_neg digit, if_neg digit]
  by_cases quote : first = '"'
  · rw [if_pos quote, if_pos quote]
    exact cutsOff_string fresh' (quote ▸ behind)
  rw [if_neg quote, if_neg quote]
  by_cases isSlash : first = '/'
  · rw [if_pos isSlash, if_pos isSlash]
    exact cutsOff_slash finds fresh' (isSlash ▸ behind)
  rw [if_neg isSlash, if_neg isSlash]
  cases Symbol.ofCharacter? first with
  | some symbol => exact cutsOff_single newline behind
  | none =>
      cases Symbol.ofComparison? first with
      | some symbols => exact cutsOff_comparison newline behind
      | none => exact cutsOff_unexpected _ newline fresh hasRead

/-- With a character of several bytes no lexeme starts. -/
theorem not_starts_of_large {character : Char} (large : ¬ IsSmall character) :
    character ≠ '\n' ∧ ¬ Cut.isBlank character = true ∧ ¬ isWordStart character = true ∧
      ¬ character.isDigit = true ∧ character ≠ '"' ∧ character ≠ '/' ∧
      Symbol.ofCharacter? character = none ∧ Symbol.ofComparison? character = none := by
  have other {small : Char} (single : IsSmall small) : character ≠ small := by
    rintro rfl
    exact large single
  refine ⟨other (by decide), ?_, ?_, ?_, other (by decide), other (by decide), ?_, ?_⟩
  · intro blank
    simp only [Cut.isBlank, Bool.or_eq_true, decide_eq_true_eq] at blank
    rcases blank with ((rfl | rfl) | rfl) | rfl <;> exact large (by decide)
  · exact fun starts => large (isSmall_of_isWordPart (by rw [isWordPart, starts, Bool.true_or]))
  · exact fun digit => large (isSmall_of_isDigit digit)
  · unfold Symbol.ofCharacter?
    split <;> first | rfl | exact (large (by decide)).elim
  · unfold Symbol.ofComparison?
    split <;> first | rfl | exact (large (by decide)).elim

theorem behindFirst_of_large {character : Char} (large : ¬ IsSmall character) :
    scanner.behindFirst search source character = scanner.unexpected source := by
  obtain ⟨newline, blank, word, digit, quote, slash, single, double⟩ := not_starts_of_large large
  rw [behindFirst, if_neg newline, if_neg blank, if_neg word, if_neg digit, if_neg quote,
    if_neg slash, single, double]

theorem cut_of_large (large : ¬ IsSmall first) :
    cut first rest = ⟨⟨[first], .faulty (.unexpectedCharacter first)⟩, rest⟩ := by
  obtain ⟨-, blank, word, digit, quote, slash, single, double⟩ := not_starts_of_large large
  rw [cut, if_neg blank, if_neg word, if_neg digit, if_neg quote, if_neg slash, single, double]

/-- Where a text has a character left, its next segment is read and nothing more. -/
theorem cutsOff_lexeme (finds : search.FindsFirst) (fresh : scanner.pending = none)
    (hasRead : HasRead source scanner before [] (first :: rest)) :
    CutsOff source before scanner.line (cut first rest) (scanner.lexeme search source) := by
  by_cases small : IsSmall first
  · rw [lexeme, hasRead.advance small, ok_bind]
    dsimp only
    rw [Text.characterOf_toUInt8 small]
    exact cutsOff_behindFirst finds small fresh hasRead
  · -- The scanner sees only the first byte, with which no lexeme starts either.
    obtain ⟨byte, more, encoded⟩ := List.exists_cons_of_ne_nil
      (String.utf8EncodeChar_ne_nil (c := first))
    have large : ¬ IsSmall (Text.characterOf byte) := fun single =>
      small (Text.eq_characterOf single (encoded ▸ List.mem_cons_self) ▸ single)
    have remains := hasRead.remains
    rw [Text.bytesOf_cons, encoded, List.cons_append] at remains
    rw [lexeme, remains.advance, ok_bind, cut_of_large small]
    dsimp only
    rw [behindFirst_of_large large]
    exact cutsOff_unexpected _ (not_starts_of_large small).1 fresh hasRead

end ByteScanner

end Lox
