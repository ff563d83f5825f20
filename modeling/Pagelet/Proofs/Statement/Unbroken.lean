import Pagelet.Proofs.Statement.Readable

/-!
# Texts within one statement

A text is unbroken if it can stand anywhere in a statement, outside brackets, and
leave the reading of its neighbours alone.  Fixed words, names, literals and
readable expressions are unbroken, and so is one such text after the other.
-/

namespace Pagelet
namespace Script

variable {cs front back : List Char}

/-- The text is balanced, is not cut, and makes no comment with what stands around
it. -/
structure Unbroken (cs : List Char) : Prop where
  /-- Strings and brackets are closed. -/
  balanced : Balanced cs
  /-- No statement ends in the text. -/
  uncut : Uncut {} cs
  /-- There is no comment in the text. -/
  uncommented : Uncommented .outside cs
  /-- A slash in front makes no comment. -/
  apart : cs.head? ≠ some '/'

/-- Whether a character stands in the fixed parts of statements. -/
def isWordChar (c : Char) : Bool :=
  isInert c && !(['/', ';', '\n'].contains c)

namespace Unbroken

theorem append (first : Unbroken front) (second : Unbroken back) : Unbroken (front ++ back) where
  balanced := first.balanced.append second.balanced
  uncut := by
    apply first.uncut.append
    rw [first.balanced.after rfl]
    exact second.uncut
  uncommented := by
    refine first.uncommented.append ?_ fun _ => second.apart
    rw [first.balanced.after_quotation]
    exact second.uncommented
  apart := by
    cases front with
    | nil => exact second.apart
    | cons c front => exact first.apart

theorem of_isWordChar (word : ∀ c ∈ cs, isWordChar c = true) : Unbroken cs := by
  have inert : ∀ c ∈ cs, isInert c = true ∧ c ≠ ';' ∧ c ≠ '\n' ∧ c ≠ '/' := by
    intro c member
    have letter := word c member
    simp only [isWordChar, Bool.and_eq_true, Bool.not_eq_true', List.contains_cons,
      Bool.or_eq_false_iff, beq_eq_false_iff_ne] at letter
    exact ⟨letter.1, letter.2.2.1, letter.2.2.2.1, letter.2.1⟩
  constructor
  · apply Balanced.of_isInert
    intro c member
    exact (inert c member).1
  · apply Uncut.of_isInert rfl
    intro c member
    obtain ⟨letter, noSemicolon, noLineEnd, -⟩ := inert c member
    exact ⟨letter, noSemicolon, noLineEnd⟩
  · apply Uncommented.of_allUnquoted
    apply AllUnquoted.of_forall
    intro c member
    exact (inert c member).2.2.2
  · intro slash
    exact (inert _ (List.mem_of_head? slash)).2.2.2 rfl

theorem word (word : cs.all isWordChar = true) : Unbroken cs :=
  of_isWordChar (List.all_eq_true.1 word)

/-- A balanced text without comments may stand between parentheses. -/
theorem around_paren (balanced : Balanced cs) (uncommented : Uncommented .outside cs) :
    Unbroken (Bracket.paren.around cs) where
  balanced := balanced.around .paren
  uncut := .around_paren (balanced .paren)
  uncommented := by
    refine ⟨nofun, uncommented.append ?_ nofun⟩
    rw [balanced.after_quotation]
    exact ⟨nofun, trivial⟩
  apart := by simp [Bracket.around, Bracket.opening]

end Unbroken

end Script
end Pagelet
