import Mathlib.Data.List.Chain
import Pagelet.Proofs.Expression.Soundness
import Pagelet.Proofs.Expression.Spelling
import Pagelet.Proofs.Statement.Comments
import Pagelet.Proofs.Statement.Pieces
import Pagelet.Script.Statement

/-!
# Expressions within statements

An expression that can be read is harmless inside a statement: it closes its own
strings and brackets, holds no comment, and can be cut at its line ends only.
-/

namespace Pagelet
namespace Script

open Text (Quotation isBlank IsBlankText trim)

namespace Lexeme

variable {lexeme : Lexeme} {lexemes : List Lexeme} {word cs body content : List Char}
  {mark : Char} {holds : Char → Prop}

theorem isInert_of_isPlain {c : Char} (plain : isPlain c = true) : isInert c = true := by
  simp only [isPlain, isInert, List.contains_cons, Bool.and_eq_true, Bool.not_eq_true',
    Bool.or_eq_false_iff] at plain ⊢
  tauto

theorem Quoted.after_eq (quoted : Quoted mark body content) :
    (Quotation.inside mark).after marks body = .inside mark := by
  induction quoted with
  | nil => rfl
  | escape c quoted ih => exact ih
  | bare noEscape noMark quoted ih =>
      rw [Quotation.after_cons, Quotation.next, if_neg noEscape, if_neg noMark, ih]

theorem Quoted.allUnquoted (quoted : Quoted mark body content) :
    AllUnquoted holds (.inside mark) body := by
  induction quoted with
  | nil => trivial
  | escape c quoted ih => exact ⟨nofun, nofun, ih⟩
  | bare noEscape noMark quoted ih =>
      refine ⟨nofun, ?_⟩
      rw [Quotation.next, if_neg noEscape, if_neg noMark]
      exact ih

/-- A string literal ends outside strings. -/
theorem Quoted.after_literal (isMark : mark = '\'' ∨ mark = '"')
    (quoted : Quoted mark body content) :
    Quotation.outside.after marks (mark :: body ++ [mark]) = .outside := by
  have opens : Quotation.outside.next marks mark = .inside mark := by
    rcases isMark with rfl | rfl <;> rfl
  have closes : (Quotation.inside mark).next marks mark = .outside := by
    rcases isMark with rfl | rfl <;> rfl
  rw [Quotation.after_append, Quotation.after_cons marks .outside mark body, opens,
    quoted.after_eq]
  exact closes

theorem Quoted.allUnquoted_literal (isMark : mark = '\'' ∨ mark = '"')
    (quoted : Quoted mark body content) :
    AllUnquoted holds .outside (mark :: body ++ [mark]) := by
  have opens : Quotation.outside.next marks mark = .inside mark := by
    rcases isMark with rfl | rfl <;> rfl
  have covered : Quotation.outside.covers marks mark = true := by
    rcases isMark with rfl | rfl <;> rfl
  refine ⟨fun uncovered => absurd (covered.symm.trans uncovered) (by simp), ?_⟩
  rw [opens]
  apply quoted.allUnquoted.append
  rw [quoted.after_eq]
  exact ⟨nofun, trivial⟩

/-- Apart from parentheses and slashes, words have only plain characters outside
strings. -/
theorem Word.cases_sign (spelled : Word lexeme word) :
    lexeme = .openParen ∧ word = ['('] ∨ lexeme = .closeParen ∧ word = [')'] ∨
      lexeme = .slash ∧ word = ['/'] ∨ AllUnquoted (isPlain · = true) .outside word := by
  cases spelled with
  | quoted isMark quoted => exact .inr (.inr (.inr (quoted.allUnquoted_literal isMark)))
  | openParen => exact .inl ⟨rfl, rfl⟩
  | closeParen => exact .inr (.inl ⟨rfl, rfl⟩)
  | slash => exact .inr (.inr (.inl ⟨rfl, rfl⟩))
  | plain notEmpty noOpening noClosing plain =>
      exact .inr (.inr (.inr (.of_forall plain)))

theorem Word.after_eq (spelled : Word lexeme word) :
    Quotation.outside.after marks word = .outside := by
  cases spelled with
  | quoted isMark quoted => exact quoted.after_literal isMark
  | openParen => rfl
  | closeParen => rfl
  | slash => rfl
  | plain notEmpty noOpening noClosing plain =>
      apply (Balanced.of_isInert _).after_quotation
      intro c member
      exact isInert_of_isPlain (plain c member)

theorem Word.balanced (spelled : Word lexeme word) (noOpening : lexeme ≠ .openParen)
    (noClosing : lexeme ≠ .closeParen) : Balanced word := by
  rcases spelled.cases_sign with ⟨same, -⟩ | ⟨same, -⟩ | ⟨-, rfl⟩ | plain
  · exact absurd same noOpening
  · exact absurd same noClosing
  · exact .of_isInert (List.all_eq_true.1 rfl)
  · exact .of_allUnquoted (plain.imp fun c => isInert_of_isPlain) spelled.after_eq

/-- Neither a semicolon nor a brace occurs outside strings. -/
theorem Word.allUnquoted (spelled : Word lexeme word) :
    AllUnquoted (fun c => c ≠ ';' ∧ c ≠ '}') .outside word := by
  rcases spelled.cases_sign with ⟨-, rfl⟩ | ⟨-, rfl⟩ | ⟨-, rfl⟩ | plain
  · exact .of_forall (by simp)
  · exact .of_forall (by simp)
  · exact .of_forall (by simp)
  · apply plain.imp
    intro c plain
    constructor <;> rintro rfl <;> cases plain

theorem Word.uncommented (spelled : Word lexeme word) : Uncommented .outside word := by
  rcases spelled.cases_sign with ⟨-, rfl⟩ | ⟨-, rfl⟩ | ⟨-, rfl⟩ | plain
  · exact ⟨nofun, trivial⟩
  · exact ⟨nofun, trivial⟩
  · exact ⟨nofun, trivial⟩
  · apply Uncommented.of_allUnquoted
    apply plain.imp
    rintro c plain rfl
    cases plain

/-- Only the slash has one at an end. -/
theorem Word.eq_slash (spelled : Word lexeme word)
    (slash : word.head? = some '/' ∨ word.getLast? = some '/') : lexeme = .slash := by
  cases spelled with
  | quoted isMark quoted =>
      rw [List.getLast?_concat] at slash
      rcases isMark with rfl | rfl <;> rcases slash with slash | slash <;> cases slash
  | openParen => rcases slash with slash | slash <;> cases slash
  | closeParen => rcases slash with slash | slash <;> cases slash
  | slash => rfl
  | plain notEmpty noOpening noClosing plain =>
      have member : '/' ∈ word := slash.elim List.mem_of_head? List.mem_of_getLast?
      cases plain _ member

namespace Spells

theorem exists_cons (spells : Spells (lexeme :: lexemes) cs) :
    ∃ first others, cs = first ++ others ∧ Spells [lexeme] first ∧ Spells lexemes others := by
  rw [← List.singleton_append] at spells
  exact spells.exists_append

theorem balanced_of_single (spells : Spells [lexeme] cs) (noOpening : lexeme ≠ .openParen)
    (noClosing : lexeme ≠ .closeParen) : Balanced cs := by
  obtain ⟨lead, word, rest, leadBlank, first, others, rfl⟩ := spells.exists_word
  have leadBalanced : Balanced lead := .of_isBlankText leadBlank
  exact (leadBalanced.append (first.balanced noOpening noClosing)).append
    (.of_isBlankText others.of_nil)

theorem exists_openParen (spells : Spells [.openParen] cs) :
    ∃ lead tail, cs = lead ++ '(' :: tail ∧ IsBlankText lead ∧ IsBlankText tail := by
  obtain ⟨lead, word, rest, leadBlank, first, others, rfl⟩ := spells.exists_word
  cases first with
  | openParen => exact ⟨lead, rest, by simp, leadBlank, others.of_nil⟩
  | plain notEmpty noOpening noClosing plain => exact absurd rfl noOpening

theorem exists_closeParen (spells : Spells [.closeParen] cs) :
    ∃ lead tail, cs = lead ++ ')' :: tail ∧ IsBlankText lead ∧ IsBlankText tail := by
  obtain ⟨lead, word, rest, leadBlank, first, others, rfl⟩ := spells.exists_word
  cases first with
  | closeParen => exact ⟨lead, rest, by simp, leadBlank, others.of_nil⟩
  | plain notEmpty noOpening noClosing plain => exact absurd rfl noClosing

theorem allUnquoted (spells : Spells lexemes cs) :
    AllUnquoted (fun c => c ≠ ';' ∧ c ≠ '}') .outside cs := by
  induction spells with
  | nil => trivial
  | @blank _ c cs blank spells ih =>
      have inert := isInert_of_isBlank blank
      refine ⟨fun _ => ⟨?_, (Bracket.ne_of_isInert inert .brace).2⟩, ?_⟩
      · rintro rfl
        cases blank
      · rw [Quotation.next, unmarked_of_isInert inert]
        exact ih
  | word first spells ih =>
      apply first.allUnquoted.append
      rw [first.after_eq]
      exact ih

end Spells

end Lexeme

namespace Expr

open Lexeme (Spells)

variable {category : Category} {lexemes front back : List Lexeme} {sign : Lexeme} {expr : Expr}
  {cs : List Char}

theorem balanced_link (first : ∀ cs, Spells front cs → Balanced cs)
    (last : ∀ cs, Spells back cs → Balanced cs) (noOpening : sign ≠ .openParen)
    (noClosing : sign ≠ .closeParen) (spells : Spells (front ++ sign :: back) cs) :
    Balanced cs := by
  obtain ⟨left, right, rfl, leftSpells, rightSpells⟩ := spells.exists_append
  obtain ⟨middle, right, rfl, signSpells, rightSpells⟩ := rightSpells.exists_cons
  exact (first _ leftSpells).append
    ((signSpells.balanced_of_single noOpening noClosing).append (last _ rightSpells))

theorem Signs.ne_paren {op : UnaryOp} (signs : Signs sign op) :
    sign ≠ .openParen ∧ sign ≠ .closeParen := by
  cases signs <;> exact ⟨nofun, nofun⟩

theorem Joins.ne_paren {op : BinaryOp} (joins : Joins category sign op) :
    sign ≠ .openParen ∧ sign ≠ .closeParen := by
  cases joins <;> exact ⟨nofun, nofun⟩

/-- An expression closes the brackets and strings that it opens. -/
theorem Derives.balanced (derived : Derives category lexemes expr) (spells : Spells lexemes cs) :
    Balanced cs := by
  induction derived generalizing cs with
  | atom atom => cases atom <;> exact spells.balanced_of_single nofun nofun
  | @parens inner expr derived ih =>
      rw [List.cons_append] at spells
      obtain ⟨first, others, rfl, opened, spells⟩ := spells.exists_cons
      obtain ⟨middle, last, rfl, innerSpells, closed⟩ := spells.exists_append
      obtain ⟨lead, start, rfl, leadBlank, startBlank⟩ := opened.exists_openParen
      obtain ⟨stop, tail, rfl, stopBlank, tailBlank⟩ := closed.exists_closeParen
      have within : Balanced (start ++ middle ++ stop) :=
        (Balanced.append (.of_isBlankText startBlank) (ih innerSpells)).append
          (.of_isBlankText stopBlank)
      have whole := (Balanced.append (.of_isBlankText leadBlank) (within.around .paren)).append
        (.of_isBlankText tailBlank)
      simpa [Bracket.around, Bracket.opening, Bracket.closing] using whole
  | signed signs derived ih =>
      obtain ⟨first, others, rfl, signSpells, spells⟩ := spells.exists_cons
      have signBalanced : Balanced first :=
        signSpells.balanced_of_single signs.ne_paren.1 signs.ne_paren.2
      exact signBalanced.append (ih spells)
  | ofOperand derived ih => exact ih spells
  | ofProduct derived ih => exact ih spells
  | ofSum derived ih => exact ih spells
  | productLink first joins last ihFirst ihLast =>
      exact balanced_link (fun cs => ihFirst) (fun cs => ihLast) joins.ne_paren.1
        joins.ne_paren.2 spells
  | sumLink first joins last ihFirst ihLast =>
      exact balanced_link (fun cs => ihFirst) (fun cs => ihLast) joins.ne_paren.1
        joins.ne_paren.2 spells
  | compared first joins last ihFirst ihLast =>
      exact balanced_link (fun cs => ihFirst) (fun cs => ihLast) joins.ne_paren.1
        joins.ne_paren.2 spells

/-- Slashes stand apart from each other and from the ends of the list. -/
structure SlashesApart (lexemes : List Lexeme) : Prop where
  /-- No slash follows a slash. -/
  chain : lexemes.IsChain fun first second => ¬(first = .slash ∧ second = .slash)
  /-- The list begins with another lexeme. -/
  head : ∃ first ∈ lexemes.head?, first ≠ .slash
  /-- The list ends with another lexeme. -/
  last : ∃ final ∈ lexemes.getLast?, final ≠ .slash

namespace SlashesApart

theorem single (notSlash : sign ≠ .slash) : SlashesApart [sign] :=
  ⟨.singleton _, ⟨sign, rfl, notSlash⟩, ⟨sign, rfl, notSlash⟩⟩

theorem ne_nil (apart : SlashesApart lexemes) : lexemes ≠ [] := by
  rintro rfl
  obtain ⟨first, member, -⟩ := apart.head
  cases member

theorem append (first : SlashesApart front) (second : SlashesApart back) :
    SlashesApart (front ++ back) := by
  constructor
  · refine first.chain.append second.chain ?_
    rintro _ - b member ⟨-, rfl⟩
    obtain ⟨head, isHead, notSlash⟩ := second.head
    exact notSlash (Option.mem_unique isHead member)
  · obtain ⟨head, isHead, notSlash⟩ := first.head
    exact ⟨head, List.mem_head?_append_of_mem_head? isHead, notSlash⟩
  · obtain ⟨final, isFinal, notSlash⟩ := second.last
    exact ⟨final, List.mem_getLast?_append_of_mem_getLast? isFinal, notSlash⟩

/-- Any lexeme may stand between two lists. -/
theorem link (first : SlashesApart front) (second : SlashesApart back) (sign : Lexeme) :
    SlashesApart (front ++ sign :: back) := by
  constructor
  · refine first.chain.append (second.chain.cons ?_) ?_
    · rintro b member ⟨-, rfl⟩
      obtain ⟨head, isHead, notSlash⟩ := second.head
      exact notSlash (Option.mem_unique isHead member)
    · rintro a member b - ⟨rfl, -⟩
      obtain ⟨final, isFinal, notSlash⟩ := first.last
      exact notSlash (Option.mem_unique isFinal member)
  · obtain ⟨head, isHead, notSlash⟩ := first.head
    exact ⟨head, List.mem_head?_append_of_mem_head? isHead, notSlash⟩
  · obtain ⟨final, isFinal, notSlash⟩ := second.last
    have behind : final ∈ (sign :: back).getLast? := by
      rw [List.getLast?_cons_of_ne_nil second.ne_nil]
      exact isFinal
    exact ⟨final, List.mem_getLast?_append_of_mem_getLast? behind, notSlash⟩

end SlashesApart

theorem Derives.slashesApart (derived : Derives category lexemes expr) :
    SlashesApart lexemes := by
  induction derived with
  | atom atom => cases atom <;> exact .single nofun
  | parens derived ih =>
      have opens : SlashesApart [.openParen] := .single nofun
      have closes : SlashesApart [.closeParen] := .single nofun
      exact (opens.append ih).append closes
  | @signed sign _ _ _ signs derived ih =>
      have begins : SlashesApart [sign] := by cases signs <;> exact .single nofun
      exact begins.append ih
  | ofOperand derived ih => exact ih
  | ofProduct derived ih => exact ih
  | ofSum derived ih => exact ih
  | productLink first joins last ihFirst ihLast => exact ihFirst.link ihLast _
  | sumLink first joins last ihFirst ihLast => exact ihFirst.link ihLast _
  | compared first joins last ihFirst ihLast => exact ihFirst.link ihLast _

/-- A list without adjacent slashes is spelled without a comment sign. -/
theorem uncommented_of_spells
    (chain : lexemes.IsChain fun first second => ¬(first = .slash ∧ second = .slash))
    (spells : Spells lexemes cs) :
    Uncommented .outside cs ∧ (cs.head? = some '/' → lexemes.head? = some .slash) := by
  induction spells with
  | nil => exact ⟨trivial, nofun⟩
  | @blank lexemes c cs blank spells ih =>
      have notSlash : c ≠ '/' := by
        rintro rfl
        cases blank
      refine ⟨⟨fun begins => notSlash begins.2.1, ?_⟩, ?_⟩
      · rw [Quotation.next, unmarked_of_isInert (isInert_of_isBlank blank)]
        exact (ih chain).1
      · intro begins
        exact absurd (Option.some.inj begins) notSlash
  | @word lexeme lexemes word cs first spells ih =>
      obtain ⟨others, head⟩ := ih chain.tail
      have behind : Uncommented (Quotation.outside.after marks word) cs := by
        rw [first.after_eq]
        exact others
      have apart : word.getLast? = some '/' → cs.head? ≠ some '/' := by
        intro slash behindSlash
        exact chain.rel_head? (head behindSlash) ⟨first.eq_slash (.inr slash), rfl⟩
      refine ⟨first.uncommented.append behind apart, ?_⟩
      intro begins
      rw [List.head?_append_of_ne_nil _ first.ne_nil] at begins
      exact congrArg some (first.eq_slash (.inl begins))

end Expr

/-! ## Snippets -/

namespace Snippet

open Lexeme (Spells)

variable {snippet : Snippet}

/-- The text of a snippet. -/
def chars (snippet : Snippet) : List Char :=
  snippet.source.toList

/-- The snippet was made of a text that is read as an expression. -/
def Readable (snippet : Snippet) : Prop :=
  ∃ source expr, Expr.parse source = .ok expr ∧ snippet = .ofChars source.toList

theorem chars_ofChars (cs : List Char) : (ofChars cs).chars = trim cs :=
  String.toList_ofList

theorem ofChars_of_trimmed (trimmed : trim snippet.chars = snippet.chars) :
    ofChars snippet.chars = snippet := by
  rw [ofChars, trimmed, chars, String.ofList_toList]

/-- Readability can be computed. -/
theorem readable_of_isOk (ok : snippet.expression.isOk = true)
    (trimmed : trim snippet.chars = snippet.chars) : snippet.Readable := by
  cases parsed : snippet.expression with
  | error fault =>
      rw [parsed] at ok
      cases ok
  | ok expr => exact ⟨snippet.source, expr, parsed, (ofChars_of_trimmed trimmed).symm⟩

namespace Readable

/-- A readable snippet spells lexemes that the grammar derives. -/
theorem exists_derives (readable : snippet.Readable) :
    ∃ lexemes expr, Spells lexemes snippet.chars ∧ Expr.Derives .equality lexemes expr := by
  obtain ⟨source, expr, parsed, rfl⟩ := readable
  obtain ⟨lexemes, scanned, read⟩ := Expr.bind_eq_ok_iff.1 parsed
  refine ⟨lexemes, expr, ?_, Expr.derives_of_ofLexemes read⟩
  rw [chars_ofChars]
  exact (Lexeme.spells_of_scan scanned).trim

theorem trimmed (readable : snippet.Readable) : trim snippet.chars = snippet.chars := by
  obtain ⟨source, expr, -, rfl⟩ := readable
  rw [chars_ofChars, Text.trim_trim]

theorem ofChars_eq (readable : snippet.Readable) : ofChars snippet.chars = snippet :=
  ofChars_of_trimmed readable.trimmed

theorem balanced (readable : snippet.Readable) : Balanced snippet.chars := by
  obtain ⟨lexemes, expr, spells, derived⟩ := readable.exists_derives
  exact derived.balanced spells

theorem allUnquoted (readable : snippet.Readable) :
    AllUnquoted (fun c => c ≠ ';' ∧ c ≠ '}') .outside snippet.chars := by
  obtain ⟨lexemes, expr, spells, derived⟩ := readable.exists_derives
  exact spells.allUnquoted

theorem uncommented (readable : snippet.Readable) : Uncommented .outside snippet.chars := by
  obtain ⟨lexemes, expr, spells, derived⟩ := readable.exists_derives
  exact (Expr.uncommented_of_spells derived.slashesApart.chain spells).1

theorem head?_ne_slash (readable : snippet.Readable) : snippet.chars.head? ≠ some '/' := by
  obtain ⟨lexemes, expr, spells, derived⟩ := readable.exists_derives
  intro slash
  have begins := (Expr.uncommented_of_spells derived.slashesApart.chain spells).2 slash
  obtain ⟨first, isFirst, notSlash⟩ := derived.slashesApart.head
  exact notSlash (Option.mem_unique isFirst begins)

theorem chars_ne_nil (readable : snippet.Readable) : snippet.chars ≠ [] := by
  obtain ⟨lexemes, expr, spells, derived⟩ := readable.exists_derives
  intro empty
  rw [empty] at spells
  obtain ⟨first, lexemes, rfl⟩ := List.exists_cons_of_ne_nil derived.slashesApart.ne_nil
  obtain ⟨lead, word, rest, -, spelled, -, whole⟩ := spells.exists_word
  have none : lead ++ word = [] := (List.append_eq_nil_iff.1 whole.symm).1
  exact spelled.ne_nil (List.append_eq_nil_iff.1 none).2

end Readable

end Snippet

end Script
end Pagelet
