import Pagelet.Proofs.Text.Trimming
import Pagelet.Script.Lexeme

/-!
# How lexemes are spelled

A text that can be scanned is taken apart here: it is made of blanks and of one
word for each lexeme.  A word is a quoted text between its marks, a parenthesis, a
slash, or a run of plain characters, which mean nothing to whoever looks for
strings, brackets, comments or the ends of statements.
-/

namespace Pagelet
namespace Script
namespace Lexeme

open Text (isBlank IsBlankText startsBlank endsBlank trim)

theorem scan_nil : scan [] = .ok [] := by
  rw [scan.eq_def]

theorem scan_blank {c : Char} (blank : isBlank c = true) (rest : List Char) :
    scan (c :: rest) = scan rest := by
  rw [scan.eq_def]
  exact if_pos blank

/-- The scanner takes one lexeme and goes on behind it. -/
theorem scan_next {c : Char} {rest behind : List Char} {lexeme : Lexeme}
    (notBlank : isBlank c = false) (read : next c rest = .ok (lexeme, behind)) :
    scan (c :: rest) = (scan behind).map (lexeme :: ·) := by
  rw [scan.eq_def]
  simp only [notBlank, Bool.false_eq_true, if_false]
  split
  · next failed => cases read.symm.trans failed
  · next succeeded => cases read.symm.trans succeeded; rfl

/-- The first text stands between two marks and writes the second: a backslash
gives the character behind it a meaning of its own, and a bare mark does not
occur. -/
inductive Quoted (mark : Char) : List Char → List Char → Prop
  | nil : Quoted mark [] []
  | escape (c : Char) {body content : List Char} (quoted : Quoted mark body content) :
      Quoted mark ('\\' :: c :: body) (unescape c :: content)
  | bare {c : Char} {body content : List Char} (noEscape : c ≠ '\\') (noMark : c ≠ mark)
      (quoted : Quoted mark body content) : Quoted mark (c :: body) (c :: content)

/-- A quoted text is read up to its closing mark. -/
theorem readText?_append {mark : Char} {body content : List Char} (notEscape : mark ≠ '\\')
    (quoted : Quoted mark body content) (behind : List Char) :
    readText? mark (body ++ mark :: behind) = some (content, behind) := by
  induction quoted with
  | nil => simp [readText?, notEscape]
  | escape c quoted ih => simp [readText?, ih]
  | bare noEscape noMark quoted ih => simp [readText?, noEscape, noMark, ih]

/-- A text that is read was quoted. -/
theorem exists_quoted_of_readText? {mark : Char} {cs content behind : List Char}
    (read : readText? mark cs = some (content, behind)) :
    ∃ body, Quoted mark body content ∧ cs = body ++ mark :: behind := by
  fun_induction readText? mark cs generalizing content with
  | case1 => cases read
  | case2 => cases read
  | case3 c rest ih =>
      obtain ⟨⟨inner, back⟩, found, parts⟩ := Option.map_eq_some_iff.1 read
      cases parts
      obtain ⟨body, quoted, rfl⟩ := ih found
      exact ⟨'\\' :: c :: body, .escape c quoted, rfl⟩
  | case4 rest =>
      cases read
      exact ⟨[], .nil, rfl⟩
  | case5 c rest notLast notEscape notMark ih =>
      obtain ⟨⟨inner, back⟩, found, parts⟩ := Option.map_eq_some_iff.1 read
      cases parts
      obtain ⟨body, quoted, rfl⟩ := ih found
      refine ⟨c :: body, .bare ?_ notMark quoted, rfl⟩
      -- a backslash here has another character behind it: at least the closing mark
      rintro rfl
      cases whole : body ++ mark :: behind with
      | nil => simp at whole
      | cons next more => exact notEscape next more rfl whole

/-- A character that is neither blank nor of use to a scanner of statements. -/
def isPlain (c : Char) : Bool :=
  !isBlank c && !(['\'', '"', '\x60', '(', ')', '{', '}', '/', ';'].contains c)

/-- The text spells the lexeme. -/
inductive Word : Lexeme → List Char → Prop
  | quoted {mark : Char} {body content : List Char} (isMark : mark = '\'' ∨ mark = '"')
      (quoted : Quoted mark body content) :
      Word (.text (String.ofList content)) (mark :: body ++ [mark])
  | openParen : Word .openParen ['(']
  | closeParen : Word .closeParen [')']
  | slash : Word .slash ['/']
  | plain {lexeme : Lexeme} {cs : List Char} (notEmpty : cs ≠ [])
      (noOpening : lexeme ≠ .openParen) (noClosing : lexeme ≠ .closeParen)
      (plain : ∀ c ∈ cs, isPlain c = true) : Word lexeme cs

theorem isBlank_of_isPlain {c : Char} (plain : isPlain c = true) : isBlank c = false := by
  simp only [isPlain, Bool.and_eq_true, Bool.not_eq_true'] at plain
  exact plain.1

theorem toNat_of_isNameChar {c : Char} (nameChar : isNameChar c = true) :
    c.toNat = 36 ∨ (48 ≤ c.toNat ∧ c.toNat ≤ 57) ∨ (65 ≤ c.toNat ∧ c.toNat ≤ 90) ∨
      c.toNat = 95 ∨ (97 ≤ c.toNat ∧ c.toNat ≤ 122) := by
  have ranges : isNameChar c =
      ((decide (65 ≤ c.val ∧ c.val ≤ 90) || (decide (97 ≤ c.val) && decide (c.val ≤ 122)) ||
        (decide (48 ≤ c.val) && decide (c.val ≤ 57))) || c == '_' || c == '$') := rfl
  rw [ranges] at nameChar
  simp only [Bool.or_eq_true, Bool.and_eq_true, decide_eq_true_eq, beq_iff_eq,
    UInt32.le_iff_toNat_le, ← Char.toNat_inj] at nameChar
  simp only [Char.toNat_val, Char.reduceToNat, UInt32.reduceToNat] at nameChar
  omega

/-- Letters, digits, `_` and `$` are plain. -/
theorem isPlain_of_isNameChar {c : Char} (nameChar : isNameChar c = true) :
    isPlain c = true := by
  have codes := toNat_of_isNameChar nameChar
  have notBlank : isBlank c = false := by
    simp only [isBlank, Bool.or_eq_false_iff, Bool.and_eq_false_iff, decide_eq_false_iff_not,
      beq_eq_false_iff_ne]
    omega
  have unlisted :
      ['\'', '"', '\x60', '(', ')', '{', '}', '/', ';'].contains c = false := by
    simp [← Char.toNat_inj]
    omega
  rw [isPlain, notBlank, unlisted]
  rfl

theorem isNameChar_of_isDigit {c : Char} (digit : c.isDigit = true) : isNameChar c = true := by
  simp [isNameChar, Char.isAlphanum, digit]

theorem isNameChar_of_isNameStart {c : Char} (start : isNameStart c = true) :
    isNameChar c = true := by
  simp only [isNameStart, isNameChar, Char.isAlphanum, Bool.or_eq_true] at start ⊢
  tauto

theorem Word.name {lexeme : Lexeme} {cs : List Char} (notEmpty : cs ≠ [])
    (noOpening : lexeme ≠ .openParen) (noClosing : lexeme ≠ .closeParen)
    (names : ∀ c ∈ cs, isNameChar c = true) : Word lexeme cs := by
  apply Word.plain notEmpty noOpening noClosing
  intro c member
  exact isPlain_of_isNameChar (names c member)

theorem isDigit_of_isNameStart {c : Char} (start : isNameStart c = true) : c.isDigit = false := by
  have letters : isNameStart c =
      ((decide (65 ≤ c.val ∧ c.val ≤ 90) || (decide (97 ≤ c.val) && decide (c.val ≤ 122))) ||
        c == '_' || c == '$') := rfl
  have digits : c.isDigit = (decide (48 ≤ c.val) && decide (c.val ≤ 57)) := rfl
  rw [letters] at start
  rw [digits]
  simp only [Bool.or_eq_true, Bool.and_eq_true, decide_eq_true_eq, beq_iff_eq,
    UInt32.le_iff_toNat_le, ← Char.toNat_inj, Bool.and_eq_false_iff, decide_eq_false_iff_not]
    at start ⊢
  simp only [Char.toNat_val, Char.reduceToNat, UInt32.reduceToNat] at start ⊢
  omega

/-- A character that begins a name is read as the first of one. -/
theorem next_of_isNameStart {c : Char} (start : isNameStart c = true) (rest : List Char) :
    next c rest = .ok (.name (String.ofList (c :: rest.takeWhile isNameChar)),
      rest.dropWhile isNameChar) := by
  have unquoted : ¬(c = '\'' ∨ c = '"') := by rintro (rfl | rfl) <;> cases start
  unfold next
  split
  case h_9 => simp [unquoted, isDigit_of_isNameStart start, splitName?, start]
  all_goals cases start

/-- The name that is cut off a text consists of letters, digits, `_` and `$`. -/
theorem isNameChar_of_splitName? {cs name behind : List Char}
    (split : splitName? cs = some (name, behind)) : ∀ c ∈ name, isNameChar c = true := by
  cases cs with
  | nil => cases split
  | cons c rest =>
      rw [splitName?] at split
      split at split
      · next start =>
        cases split
        intro d member
        rcases List.mem_cons.1 member with rfl | inRest
        · exact isNameChar_of_isNameStart start
        · exact List.mem_takeWhile_imp inRest
      · cases split

/-- The third sign of `===` and `!==` is a part of the lexeme. -/
theorem exists_dropEqualSign (cs : List Char) :
    ∃ sign, (∀ c ∈ sign, c = '=') ∧ cs = sign ++ dropEqualSign cs := by
  unfold dropEqualSign
  split
  · exact ⟨['='], by simp, rfl⟩
  · exact ⟨[], by simp, rfl⟩

/-- A sign of a comparison makes up a word. -/
theorem Word.comparison {lexeme : Lexeme} {first : Char} {sign : List Char}
    (plain : isPlain first = true) (noOpening : lexeme ≠ .openParen)
    (noClosing : lexeme ≠ .closeParen) (signs : ∀ c ∈ sign, c = '=') :
    Word lexeme (first :: '=' :: sign) := by
  apply Word.plain (List.cons_ne_nil _ _) noOpening noClosing
  intro c member
  rcases List.mem_cons.1 member with rfl | member
  · exact plain
  · rcases List.mem_cons.1 member with rfl | member
    · decide
    · rw [signs c member]
      decide

/-- A lexeme that is read has been spelled. -/
theorem exists_word_of_next {c : Char} {rest behind : List Char} {lexeme : Lexeme}
    (read : next c rest = .ok (lexeme, behind)) :
    ∃ word, Word lexeme word ∧ c :: rest = word ++ behind := by
  unfold next at read
  split at read
  case h_1 =>
    cases read
    exact ⟨['+'], .plain (by simp) (by simp) (by simp) (List.all_eq_true.1 rfl), rfl⟩
  case h_2 =>
    cases read
    exact ⟨['-'], .plain (by simp) (by simp) (by simp) (List.all_eq_true.1 rfl), rfl⟩
  case h_3 =>
    cases read
    exact ⟨['*'], .plain (by simp) (by simp) (by simp) (List.all_eq_true.1 rfl), rfl⟩
  case h_4 =>
    cases read
    exact ⟨['/'], .slash, rfl⟩
  case h_5 =>
    cases read
    exact ⟨['('], .openParen, rfl⟩
  case h_6 =>
    cases read
    exact ⟨[')'], .closeParen, rfl⟩
  case h_7 =>
    split at read
    · next more =>
      cases read
      obtain ⟨sign, signs, whole⟩ := exists_dropEqualSign more
      refine ⟨'=' :: '=' :: sign, .comparison (by decide) (by simp) (by simp) signs, ?_⟩
      rw [List.cons_append, List.cons_append, ← whole]
    · cases read
  case h_8 =>
    split at read
    · next more =>
      cases read
      obtain ⟨sign, signs, whole⟩ := exists_dropEqualSign more
      refine ⟨'!' :: '=' :: sign, .comparison (by decide) (by simp) (by simp) signs, ?_⟩
      rw [List.cons_append, List.cons_append, ← whole]
    · cases read
      exact ⟨['!'], .plain (by simp) (by simp) (by simp) (List.all_eq_true.1 rfl), rfl⟩
  case h_9 =>
    split at read
    · next isMark =>
      split at read
      · next found =>
        cases read
        obtain ⟨body, quoted, rfl⟩ := exists_quoted_of_readText? found
        exact ⟨c :: body ++ [c], .quoted (by simpa using isMark) quoted, by simp⟩
      · cases read
    · split at read
      · next digit =>
        simp only at read
        split at read
        · cases read
          refine ⟨c :: rest.takeWhile Char.isDigit, .name (by simp) (by simp) (by simp) ?_, ?_⟩
          · intro d member
            rcases List.mem_cons.1 member with rfl | member
            · exact isNameChar_of_isDigit digit
            · exact isNameChar_of_isDigit (List.mem_takeWhile_imp member)
          · rw [List.cons_append, List.takeWhile_append_dropWhile]
        · cases read
      · split at read
        · next spelling _ found =>
          cases read
          refine ⟨spelling, .name ?_ (by simp) (by simp) (isNameChar_of_splitName? found),
            eq_append_of_splitName? found⟩
          rintro rfl
          exact absurd (eq_append_of_splitName? found ▸ length_lt_of_splitName? found) (by simp)
        · cases read

/-! ## Spelled lists -/

/-- The text spells the list of lexemes: words in the order of the lexemes, with
any blanks between them. -/
inductive Spells : List Lexeme → List Char → Prop
  | nil : Spells [] []
  | blank {lexemes : List Lexeme} {c : Char} {cs : List Char} (blank : isBlank c = true)
      (spells : Spells lexemes cs) : Spells lexemes (c :: cs)
  | word {lexeme : Lexeme} {lexemes : List Lexeme} {word cs : List Char}
      (first : Word lexeme word) (spells : Spells lexemes cs) :
      Spells (lexeme :: lexemes) (word ++ cs)

/-- A text that is scanned spells the lexemes that are found. -/
theorem spells_of_scan {cs : List Char} {lexemes : List Lexeme} (scanned : scan cs = .ok lexemes) :
    Spells lexemes cs := by
  fun_induction scan cs generalizing lexemes with
  | case1 =>
      cases scanned
      exact .nil
  | case2 c rest blank ih => exact .blank blank (ih scanned)
  | case3 => cases scanned
  | case4 c rest notBlank lexeme behind read ih =>
      cases more : scan behind with
      | error fault => rw [more] at scanned; cases scanned
      | ok others =>
          rw [more] at scanned
          cases scanned
          obtain ⟨word, first, whole⟩ := exists_word_of_next read
          exact whole ▸ .word first (ih more)

namespace Word

variable {lexeme : Lexeme} {word : List Char}

theorem ne_nil (spelled : Word lexeme word) : word ≠ [] := by
  cases spelled with
  | plain notEmpty noOpening noClosing plain => exact notEmpty
  | _ => simp

/-- No word begins with a blank. -/
theorem startsBlank (spelled : Word lexeme word) : startsBlank word = false := by
  cases spelled with
  | quoted isMark quoted => rcases isMark with rfl | rfl <;> rfl
  | plain notEmpty noOpening noClosing plain =>
      obtain ⟨c, rest, rfl⟩ := List.exists_cons_of_ne_nil notEmpty
      exact isBlank_of_isPlain (plain c List.mem_cons_self)
  | _ => rfl

theorem endsBlank (spelled : Word lexeme word) : endsBlank word = false := by
  cases spelled with
  | quoted isMark quoted =>
      rw [Text.endsBlank_append (by simp)]
      rcases isMark with rfl | rfl <;> rfl
  | plain notEmpty noOpening noClosing plain =>
      obtain ⟨c, rest, reversed⟩ :=
        List.exists_cons_of_ne_nil (List.reverse_ne_nil_iff.2 notEmpty)
      have last : c ∈ word := List.mem_reverse.1 (reversed ▸ List.mem_cons_self)
      rw [Text.endsBlank, reversed]
      exact isBlank_of_isPlain (plain c last)
  | _ => rfl

end Word

namespace Spells

variable {lexemes front back : List Lexeme} {cs tail : List Char}

/-- Spellings are joined end to end. -/
theorem append (first : Spells front cs) (second : Spells back tail) :
    Spells (front ++ back) (cs ++ tail) := by
  induction first with
  | nil => exact second
  | blank blank spells ih => exact .blank blank ih
  | word first spells ih =>
      rw [List.append_assoc, List.cons_append]
      exact .word first ih

/-- No lexemes are spelled by blanks alone. -/
theorem of_nil (spells : Spells [] cs) : IsBlankText cs := by
  generalize empty : ([] : List Lexeme) = lexemes at spells
  induction spells with
  | nil => exact Text.isBlankText_nil
  | blank blank spells ih => exact List.forall_mem_cons.2 ⟨blank, ih empty⟩
  | word first spells ih => cases empty

/-- The spelling of two lists one after the other falls into two spellings. -/
theorem exists_append (spells : Spells (front ++ back) cs) :
    ∃ first second, cs = first ++ second ∧ Spells front first ∧ Spells back second := by
  generalize whole : front ++ back = lexemes at spells
  induction spells generalizing front with
  | nil =>
      obtain ⟨rfl, rfl⟩ := List.append_eq_nil_iff.1 whole
      exact ⟨[], [], rfl, .nil, .nil⟩
  | @blank _ c _ blank spells ih =>
      obtain ⟨first, second, rfl, left, right⟩ := ih whole
      exact ⟨c :: first, second, rfl, .blank blank left, right⟩
  | @word lexeme lexemes word cs start spells ih =>
      cases front with
      | nil =>
          cases whole
          exact ⟨[], word ++ cs, rfl, .nil, .word start spells⟩
      | cons head front =>
          cases whole
          obtain ⟨first, second, rfl, left, right⟩ := ih rfl
          exact ⟨word ++ first, second, by simp, .word start left, right⟩

/-- The first word stands behind some blanks. -/
theorem exists_word {lexeme : Lexeme} (spells : Spells (lexeme :: lexemes) cs) :
    ∃ lead word rest, IsBlankText lead ∧ Word lexeme word ∧ Spells lexemes rest ∧
      cs = lead ++ word ++ rest := by
  generalize whole : lexeme :: lexemes = list at spells
  induction spells with
  | nil => cases whole
  | @blank _ c _ blank spells ih =>
      obtain ⟨lead, word, rest, leadBlank, first, others, rfl⟩ := ih whole
      exact ⟨c :: lead, word, rest, List.forall_mem_cons.2 ⟨blank, leadBlank⟩, first, others, rfl⟩
  | @word _ _ word rest first spells ih =>
      cases whole
      exact ⟨[], word, rest, Text.isBlankText_nil, first, spells, rfl⟩

/-- A blank in front of a spelling may be dropped. -/
theorem of_cons_blank {c : Char} (blank : isBlank c = true) (spells : Spells lexemes (c :: cs)) :
    Spells lexemes cs := by
  generalize whole : c :: cs = text at spells
  cases spells with
  | nil => cases whole
  | blank _ spells =>
      cases whole
      exact spells
  | @word _ _ word rest first spells =>
      have starts := Text.startsBlank_append first.ne_nil rest
      rw [← whole, first.startsBlank] at starts
      exact absurd (blank.symm.trans starts) (by simp)

theorem of_blank_append {lead : List Char} (leadBlank : IsBlankText lead)
    (spells : Spells lexemes (lead ++ cs)) : Spells lexemes cs := by
  induction lead with
  | nil => exact spells
  | cons c lead ih =>
      obtain ⟨blank, leadBlank⟩ := List.forall_mem_cons.1 leadBlank
      exact ih leadBlank (spells.of_cons_blank blank)

theorem of_isBlankText (blank : IsBlankText cs) : Spells [] cs := by
  induction cs with
  | nil => exact .nil
  | cons c cs ih =>
      obtain ⟨blank, others⟩ := List.forall_mem_cons.1 blank
      exact .blank blank (ih others)

theorem of_append_blank (tailBlank : IsBlankText tail) (spells : Spells lexemes (cs ++ tail)) :
    Spells lexemes cs := by
  induction lexemes generalizing cs with
  | nil =>
      apply of_isBlankText
      intro c member
      exact spells.of_nil c (List.mem_append_left _ member)
  | cons lexeme lexemes ih =>
      obtain ⟨lead, word, rest, leadBlank, first, others, whole⟩ := spells.exists_word
      have spelled (more : List Char) (others : Spells lexemes more) :
          Spells (lexeme :: lexemes) (lead ++ word ++ more) := by
        rw [List.append_assoc]
        exact (of_isBlankText leadBlank).append (.word first others)
      rcases List.append_eq_append_iff.1 whole with
        ⟨more, front, rfl⟩ | ⟨more, rfl, rfl⟩
      · -- the blanks cannot begin inside the word, whose last character is none
        cases more with
        | nil =>
            rw [List.append_nil] at front
            rw [← front, ← List.append_nil (lead ++ word)]
            exact spelled [] (ih others)
        | cons c more =>
            have ends : endsBlank (lead ++ word) = true := by
              rw [front, Text.endsBlank_append (by simp)]
              apply Text.endsBlank_eq_true (List.cons_ne_nil _ _)
              intro d member
              exact tailBlank d (List.mem_append_left _ member)
            rw [Text.endsBlank_append first.ne_nil, first.endsBlank] at ends
            cases ends
      · exact spelled more (ih others)

/-- Trimming a text takes nothing from its words. -/
theorem trim (spells : Spells lexemes cs) : Spells lexemes (trim cs) := by
  obtain ⟨lead, tail, leadBlank, tailBlank, whole⟩ := Text.exists_eq_append_trim cs
  rw [whole, List.append_assoc] at spells
  exact (spells.of_blank_append leadBlank).of_append_blank tailBlank

end Spells

/-- The lexemes as messages show them, each with a space behind it. -/
def spaced (lexemes : List Lexeme) : List Char :=
  lexemes.flatMap fun lexeme => lexeme.shown.toList ++ [' ']

/-- The lexeme is read back from the way it is shown. -/
def Legible (lexeme : Lexeme) : Prop :=
  ∃ c word, lexeme.shown.toList = c :: word ∧ isBlank c = false ∧
    ∀ rest, next c (word ++ ' ' :: rest) = .ok (lexeme, ' ' :: rest)

/-- Legible lexemes with spaces between them scan to themselves. -/
theorem scan_spaced {lexemes : List Lexeme} (legible : ∀ lexeme ∈ lexemes, Legible lexeme) :
    scan (spaced lexemes) = .ok lexemes := by
  induction lexemes with
  | nil => exact scan_nil
  | cons lexeme lexemes ih =>
      obtain ⟨⟨c, word, shown, notBlank, read⟩, others⟩ := List.forall_mem_cons.1 legible
      have text : spaced (lexeme :: lexemes) = c :: (word ++ ' ' :: spaced lexemes) := by
        simp [spaced, shown]
      rw [text, scan_next notBlank (read _), scan_blank (by decide), ih others]
      rfl

end Lexeme
end Script
end Pagelet
