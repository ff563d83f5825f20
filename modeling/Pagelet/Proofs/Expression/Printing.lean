import Pagelet.Proofs.Statement.Forms
import Pagelet.Proofs.Text.Numerals

/-!
# Expressions that are written out

An expression is written with each operator between two operands in parentheses, and with
blanks between its lexemes.  A lexeme can have several spellings: the digits of a number may
follow zeros, a text stands between marks of either kind, and a comparison has two signs or
three.  Whichever spellings and blanks are taken, scanning finds the same lexemes.
-/

namespace Pagelet
namespace Script

open Statement (IsName)
open Text (isBlank IsBlankText Writes)

/-- The sign of an operator before its operand. -/
def UnaryOp.sign : UnaryOp → Lexeme
  | negate => .minus
  | not => .bang

/-- The sign of an operator between its operands. -/
def BinaryOp.sign : BinaryOp → Lexeme
  | add => .plus
  | sub => .minus
  | mul => .star
  | div => .slash
  | equal => .equal
  | notEqual => .notEqual

/-- The lexeme that writes a literal. -/
def Value.lexeme : Value → Lexeme
  | text content => .text content
  | number value => .number value
  | flag true => .name "true"
  | flag false => .name "false"

/-- The lexemes that write an expression, with parentheses around every operator that stands
between its operands. -/
def Expr.lexemes : Expr → List Lexeme
  | literal value => [value.lexeme]
  | var name => [.name name]
  | unary op operand => op.sign :: operand.lexemes
  | binary op left right =>
      .openParen :: (left.lexemes ++ op.sign :: (right.lexemes ++ [.closeParen]))

namespace Lexeme

/-- How a character is written between two marks. -/
def escapeMark (mark c : Char) : List Char :=
  if c = '\\' ∨ c = mark then ['\\', c] else [c]

/-- A text between two marks. -/
def quote (mark : Char) (content : List Char) : List Char :=
  mark :: content.flatMap (escapeMark mark) ++ [mark]

/-- The text is a spelling of the lexeme. -/
inductive SpelledAs : Lexeme → List Char → Prop
  | number {value : Int64} {digits : List Char} {magnitude : Nat}
      (writes : Writes 10 digits magnitude) (same : value.toInt = magnitude) :
      SpelledAs (.number value) digits
  | text {mark : Char} (isMark : mark = '\'' ∨ mark = '"') (content : String) :
      SpelledAs (.text content) (quote mark content.toList)
  | name {spelling : String} (isName : IsName spelling) :
      SpelledAs (.name spelling) spelling.toList
  | plus : SpelledAs .plus ['+']
  | minus : SpelledAs .minus ['-']
  | star : SpelledAs .star ['*']
  | slash : SpelledAs .slash ['/']
  | bang : SpelledAs .bang ['!']
  | openParen : SpelledAs .openParen ['(']
  | closeParen : SpelledAs .closeParen [')']
  | equal : SpelledAs .equal ['=', '=']
  | strictlyEqual : SpelledAs .equal ['=', '=', '=']
  | notEqual : SpelledAs .notEqual ['!', '=']
  | strictlyNotEqual : SpelledAs .notEqual ['!', '=', '=']

/-- The text spells the lexemes one after the other, with some blanks between neighbours and
any blanks at the end. -/
inductive SpacedAs : List Lexeme → List Char → Prop
  | last {lexeme : Lexeme} {word tail : List Char} (spelled : SpelledAs lexeme word)
      (blank : IsBlankText tail) : SpacedAs [lexeme] (word ++ tail)
  | next {lexeme : Lexeme} {lexemes : List Lexeme} {word gap cs : List Char}
      (spelled : SpelledAs lexeme word) (some : gap ≠ []) (blank : IsBlankText gap)
      (spaced : SpacedAs lexemes cs) : SpacedAs (lexeme :: lexemes) (word ++ (gap ++ cs))

end Lexeme

/-- The text writes the expression. -/
def Expr.WrittenAs (expr : Expr) (source : String) : Prop :=
  ∃ lead cs, IsBlankText lead ∧ Lexeme.SpacedAs expr.lexemes cs ∧ source.toList = lead ++ cs

namespace Lexeme

variable {c : Char} {word rest : List Char} {lexeme : Lexeme} {lexemes : List Lexeme}

/-- The text is empty, or a blank comes first. -/
def Pauses (rest : List Char) : Prop :=
  ∀ c ∈ rest.head?, isBlank c = true

theorem Pauses.of_blank (blank : IsBlankText rest) : Pauses rest := by
  intro c first
  exact blank c (List.mem_of_head? first)

theorem Pauses.append {gap : List Char} (some : gap ≠ []) (blank : IsBlankText gap)
    (cs : List Char) : Pauses (gap ++ cs) := by
  obtain ⟨c, gap, rfl⟩ := List.exists_cons_of_ne_nil some
  intro d first
  cases first
  exact blank c List.mem_cons_self

/-- A class of characters without blanks ends at a pause. -/
theorem Pauses.spanned {holds : Char → Bool} (pauses : Pauses rest)
    (noBlank : ∀ c, holds c = true → isBlank c = false) (all : ∀ c ∈ word, holds c = true) :
    (word ++ rest).takeWhile holds = word ∧ (word ++ rest).dropWhile holds = rest := by
  have behind : rest.takeWhile holds = [] ∧ rest.dropWhile holds = rest := by
    cases rest with
    | nil => exact ⟨rfl, rfl⟩
    | cons c rest =>
        have stops : ¬ holds c = true := fun held =>
          absurd (pauses c rfl) (by simp [noBlank c held])
        simp [stops]
  rw [List.takeWhile_append_of_pos all, List.dropWhile_append_of_pos all, behind.1, behind.2,
    List.append_nil]
  exact ⟨rfl, rfl⟩

/-- A pause is no sign. -/
theorem Pauses.dropEqualSign (pauses : Pauses rest) : dropEqualSign rest = rest := by
  unfold Lexeme.dropEqualSign
  split
  · exact absurd (pauses '=' rfl) (by decide)
  · rfl

theorem isBlank_of_isNameChar (nameChar : isNameChar c = true) : isBlank c = false :=
  isBlank_of_isPlain (isPlain_of_isNameChar nameChar)

/-- Between marks an escaped text stands for the text itself. -/
theorem quoted_flatMap_escapeMark {mark : Char} (isMark : mark = '\'' ∨ mark = '"')
    (content : List Char) : Quoted mark (content.flatMap (escapeMark mark)) content := by
  induction content with
  | nil => exact .nil
  | cons c content ih =>
      rw [List.flatMap_cons, escapeMark]
      split
      · next special =>
        have same : unescape c = c := by
          rcases special with rfl | rfl
          · rfl
          · rcases isMark with rfl | rfl <;> rfl
        have quoted := ih.escape c
        rw [same] at quoted
        exact quoted
      · next ordinary =>
        rw [not_or] at ordinary
        exact .bare ordinary.1 ordinary.2 ih

/-- A literal between marks scans to its content. -/
theorem next_quote {mark : Char} (isMark : mark = '\'' ∨ mark = '"') (content : String)
    (rest : List Char) :
    next mark (content.toList.flatMap (escapeMark mark) ++ [mark] ++ rest) =
      .ok (.text content, rest) := by
  have notEscape : mark ≠ '\\' := by rcases isMark with rfl | rfl <;> decide
  have found := readText?_append notEscape (quoted_flatMap_escapeMark isMark content.toList) rest
  rw [List.append_assoc, List.singleton_append]
  rcases isMark with rfl | rfl <;> simp [next, found]

/-- The characters that write a number are digits. -/
theorem isDigit_of_writes {digits : List Char} {magnitude : Nat}
    (writes : Writes 10 digits magnitude) : ∀ c ∈ digits, c.isDigit = true := by
  intro c member
  have valued := Text.isSome_digit?_of_writes (by omega) (by omega) writes c member
  obtain ⟨value, found⟩ := Option.isSome_iff_exists.1 valued
  obtain ⟨small, codes⟩ := Text.digit?_eq_some_iff_toNat.1 found
  have bounds : 48 ≤ c.toNat ∧ c.toNat ≤ 57 := by omega
  simpa [Char.isDigit, UInt32.le_iff_toNat_le] using bounds

theorem isBlank_of_isDigit (digit : c.isDigit = true) : isBlank c = false :=
  isBlank_of_isNameChar (isNameChar_of_isDigit digit)

/-- A character that is a digit is read as the first of a number. -/
theorem next_of_isDigit {value : Int64} (digit : c.isDigit = true)
    (read : Text.int64? (c :: rest.takeWhile Char.isDigit) = some value) :
    next c rest = .ok (.number value, rest.dropWhile Char.isDigit) := by
  have unquoted : ¬(c = '\'' ∨ c = '"') := by rintro (rfl | rfl) <;> cases digit
  unfold next
  split
  case h_9 => simp [unquoted, digit, read]
  all_goals cases digit

/-- The lexeme is read from any of its spellings, up to the next blank. -/
def ReadAs (lexeme : Lexeme) (word : List Char) : Prop :=
  ∃ c more, word = c :: more ∧ isBlank c = false ∧
    ∀ rest, Pauses rest → next c (more ++ rest) = .ok (lexeme, rest)

/-- A spelled lexeme is read as itself. -/
theorem SpelledAs.readAs (spelled : SpelledAs lexeme word) : ReadAs lexeme word := by
  cases spelled with
  | @number value _ magnitude writes same =>
      have digit := isDigit_of_writes writes
      have some : word ≠ [] := by
        rintro rfl
        exact Text.not_writes_nil writes
      obtain ⟨first, more, rfl⟩ := List.exists_cons_of_ne_nil some
      obtain ⟨starts, others⟩ := List.forall_mem_cons.1 digit
      refine ⟨first, more, rfl, isBlank_of_isDigit starts, fun rest pauses => ?_⟩
      obtain ⟨taken, left⟩ := pauses.spanned (fun c => isBlank_of_isDigit) others
      have read : Text.int64? (first :: more) = .some value :=
        Text.int64?_eq_some_iff.2 ⟨_, magnitude, writes, .inr ⟨[], by decide, rfl, same⟩⟩
      rw [next_of_isDigit starts (taken.symm ▸ read), left]
  | text isMark content =>
      refine ⟨_, _, rfl, ?_, fun rest _ => next_quote isMark content rest⟩
      rcases isMark with rfl | rfl <;> rfl
  | name isName =>
      obtain ⟨first, more, spelled, starts, continues⟩ := isName.exists_cons
      refine ⟨first, more, spelled, isBlank_of_isNameChar (isNameChar_of_isNameStart starts),
        fun rest pauses => ?_⟩
      obtain ⟨taken, left⟩ := pauses.spanned (fun c => isBlank_of_isNameChar) continues
      rw [next_of_isNameStart starts, taken, left, ← spelled, String.ofList_toList]
  | plus | minus | star | slash | openParen | closeParen =>
      exact ⟨_, [], rfl, by decide, fun rest _ => rfl⟩
  | strictlyEqual | strictlyNotEqual =>
      exact ⟨_, _, rfl, by decide, fun rest _ => rfl⟩
  | equal | notEqual =>
      refine ⟨_, _, rfl, by decide, fun rest pauses => ?_⟩
      rw [List.singleton_append, next.eq_def]
      simp only [pauses.dropEqualSign]
  | bang =>
      refine ⟨_, _, rfl, by decide, fun rest pauses => ?_⟩
      rw [List.nil_append, next.eq_def]
      simp only
      split
      · exact absurd (pauses '=' rfl) (by decide)
      · rfl

/-- Leading blanks are not scanned. -/
theorem scan_append_of_blank {gap : List Char} (blank : IsBlankText gap) (cs : List Char) :
    scan (gap ++ cs) = scan cs := by
  induction gap with
  | nil => rfl
  | cons c gap ih =>
      obtain ⟨first, others⟩ := List.forall_mem_cons.1 blank
      rw [List.cons_append, scan_blank first, ih others]

/-- A lexeme in front of a pause is scanned, whatever comes behind. -/
theorem SpelledAs.scan_append (spelled : SpelledAs lexeme word) (pauses : Pauses rest) :
    scan (word ++ rest) = (scan rest).map (lexeme :: ·) := by
  obtain ⟨c, more, rfl, notBlank, read⟩ := spelled.readAs
  rw [List.cons_append, scan_next notBlank (read rest pauses)]

/-- The lexemes of a text are found again, in whatever way they are spelled and spaced. -/
theorem SpacedAs.scan_eq {cs : List Char} (spaced : SpacedAs lexemes cs) :
    scan cs = .ok lexemes := by
  induction spaced with
  | @last lexeme word tail spelled blank =>
      have behind : scan tail = .ok [] := by
        rw [← List.append_nil tail, scan_append_of_blank blank, scan_nil]
      rw [spelled.scan_append (.of_blank blank), behind]
      rfl
  | next spelled some blank spaced ih =>
      rw [spelled.scan_append (.append some blank _), scan_append_of_blank blank, ih]
      rfl

/-- A number whose first character is a digit is written without a sign. -/
theorem spelledAs_of_int64? {value : Int64} {more : List Char} (digit : c.isDigit = true)
    (read : Text.int64? (c :: more) = some value) : SpelledAs (.number value) (c :: more) := by
  obtain ⟨digits, magnitude, writes, ⟨⟨⟩, -⟩ | ⟨sign, isSign, whole, same⟩⟩ :=
    Text.int64?_eq_some_iff.1 read
  · cases digit
  · rw [Text.plusSigns, List.mem_pair] at isSign
    rcases isSign with rfl | rfl
    · exact whole ▸ .number writes same
    · cases whole
      cases digit

/-- A lexeme that is read could have been written. -/
theorem exists_spelledAs_of_next {behind : List Char} (read : next c rest = .ok (lexeme, behind)) :
    ∃ word, SpelledAs lexeme word := by
  unfold next at read
  split at read
  case h_1 => cases read; exact ⟨_, .plus⟩
  case h_2 => cases read; exact ⟨_, .minus⟩
  case h_3 => cases read; exact ⟨_, .star⟩
  case h_4 => cases read; exact ⟨_, .slash⟩
  case h_5 => cases read; exact ⟨_, .openParen⟩
  case h_6 => cases read; exact ⟨_, .closeParen⟩
  case h_7 =>
    split at read <;> cases read
    exact ⟨_, .equal⟩
  case h_8 =>
    split at read <;> cases read
    · exact ⟨_, .notEqual⟩
    · exact ⟨_, .bang⟩
  case h_9 =>
    split at read
    · split at read <;> cases read
      exact ⟨_, .text (.inl rfl) _⟩
    · split at read
      · next digit =>
        simp only at read
        split at read <;> cases read
        next value found => exact ⟨_, spelledAs_of_int64? digit found⟩
      · split at read <;> cases read
        next found => exact ⟨_, .name (Statement.isName_of_splitName? found)⟩

/-- Whatever is scanned can be spelled. -/
theorem exists_spelledAs_of_scan {cs : List Char} (scanned : scan cs = .ok lexemes) :
    ∀ lexeme ∈ lexemes, ∃ word, SpelledAs lexeme word := by
  fun_induction scan cs generalizing lexemes with
  | case1 =>
      cases scanned
      exact List.forall_mem_nil _
  | case2 c rest blank ih => exact ih scanned
  | case3 => cases scanned
  | case4 c rest notBlank lexeme behind read ih =>
      cases more : scan behind with
      | error fault => rw [more] at scanned; cases scanned
      | ok others =>
          rw [more] at scanned
          cases scanned
          exact List.forall_mem_cons.2 ⟨exists_spelledAs_of_next read, ih more⟩

/-- Lexemes that have spellings are spaced by single spaces. -/
theorem exists_spacedAs (spellings : ∀ lexeme ∈ lexemes, ∃ word, SpelledAs lexeme word)
    (some : lexemes ≠ []) : ∃ cs, SpacedAs lexemes cs := by
  induction lexemes with
  | nil => exact absurd rfl some
  | cons lexeme lexemes ih =>
      obtain ⟨⟨word, spelled⟩, others⟩ := List.forall_mem_cons.1 spellings
      cases lexemes with
      | nil => exact ⟨_, .last spelled Text.isBlankText_nil⟩
      | cons next more =>
          obtain ⟨cs, spaced⟩ := ih others (List.cons_ne_nil _ _)
          have blank : IsBlankText [' '] := List.forall_mem_singleton.2 rfl
          exact ⟨_, .next spelled (List.cons_ne_nil _ _) blank spaced⟩

end Lexeme
end Script
end Pagelet
