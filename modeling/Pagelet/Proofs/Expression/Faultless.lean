import Pagelet.Proofs.Expression.Soundness
import Pagelet.Proofs.Expression.Spelling
import Pagelet.Script.Run

/-!
# Expressions without arithmetic

A fault of evaluation comes from an operator that computes with numbers.  Where none of the
four signs of arithmetic is written, no such operator is read, and an expression that can
be read has a value whatever its variables hold.
-/

namespace Pagelet
namespace Script

namespace Lexeme

/-- Whether the lexeme is a sign of arithmetic. -/
def isArithmetic : Lexeme → Bool
  | plus | minus | star | slash => true
  | _ => false

/-- The characters that write the signs of arithmetic. -/
def arithmeticMarks : List Char :=
  ['+', '-', '*', '/']

/-- A sign of arithmetic is written by its own character. -/
theorem mem_arithmeticMarks_of_next {c : Char} {rest behind : List Char} {lexeme : Lexeme}
    (read : next c rest = .ok (lexeme, behind)) (arithmetic : lexeme.isArithmetic = true) :
    c ∈ arithmeticMarks := by
  unfold next at read
  split at read
  case h_1 | h_2 | h_3 | h_4 => decide
  case h_5 | h_6 => cases read; cases arithmetic
  case h_7 =>
    split at read <;> cases read
    cases arithmetic
  case h_8 => split at read <;> cases read <;> cases arithmetic
  case h_9 =>
    split at read
    · split at read <;> cases read
      cases arithmetic
    · split at read
      · simp only at read
        split at read <;> cases read
        cases arithmetic
      · split at read <;> cases read
        cases arithmetic

/-- A text without the characters of arithmetic has no sign of arithmetic. -/
theorem isArithmetic_of_scan {cs : List Char} {lexemes : List Lexeme}
    (scanned : scan cs = .ok lexemes) (quiet : ∀ c ∈ cs, c ∉ arithmeticMarks) :
    ∀ lexeme ∈ lexemes, lexeme.isArithmetic = false := by
  fun_induction scan cs generalizing lexemes with
  | case1 =>
      cases scanned
      simp
  | case2 c rest blank ih =>
      exact ih scanned fun d member => quiet d (List.mem_cons_of_mem c member)
  | case3 => cases scanned
  | case4 c rest notBlank lexeme behind read ih =>
      have apart : lexeme.isArithmetic = false :=
        Bool.eq_false_iff.2 fun arithmetic =>
          quiet c List.mem_cons_self (mem_arithmeticMarks_of_next read arithmetic)
      obtain ⟨word, -, whole⟩ := exists_word_of_next read
      have behindQuiet (d : Char) (member : d ∈ behind) : d ∉ arithmeticMarks :=
        quiet d (whole ▸ List.mem_append_right word member)
      cases more : scan behind with
      | error fault => rw [more] at scanned; cases scanned
      | ok others =>
          rw [more] at scanned
          cases scanned
          exact List.forall_mem_cons.2 ⟨apart, ih more behindQuiet⟩

end Lexeme

/-- An expression that is written without signs of arithmetic has a value. -/
theorem Expr.Derives.exists_eval {category : Category} {lexemes : List Lexeme} {expr : Expr}
    (derived : Derives category lexemes expr)
    (quiet : ∀ lexeme ∈ lexemes, lexeme.isArithmetic = false) (bindings : Variables) :
    ∃ value, expr.eval bindings = .ok value := by
  induction derived with
  | atom atom => cases atom <;> exact ⟨_, rfl⟩
  | parens derived ih =>
      exact ih fun lexeme member => quiet lexeme (by simp [member])
  | signed signs derived ih =>
      obtain ⟨sign, others⟩ := List.forall_mem_cons.1 quiet
      obtain ⟨value, operand⟩ := ih others
      cases signs with
      | minus => cases sign
      | bang => exact ⟨.flag !value.truthy, by rw [eval, operand]; rfl⟩
  | ofOperand derived ih => exact ih quiet
  | ofProduct derived ih => exact ih quiet
  | ofSum derived ih => exact ih quiet
  | productLink first joins last ihFirst ihLast =>
      have sign := quiet _ (List.mem_append_right _ List.mem_cons_self)
      cases joins <;> cases sign
  | sumLink first joins last ihFirst ihLast =>
      have sign := quiet _ (List.mem_append_right _ List.mem_cons_self)
      cases joins <;> cases sign
  | compared first joins last ihFirst ihLast =>
      rw [List.forall_mem_append, List.forall_mem_cons] at quiet
      obtain ⟨left, leftValue⟩ := ihFirst quiet.1
      obtain ⟨right, rightValue⟩ := ihLast quiet.2.2
      cases joins with
      | equal => exact ⟨.flag (left = right), by rw [eval, leftValue, rightValue]; rfl⟩
      | notEqual => exact ⟨.flag (left ≠ right), by rw [eval, leftValue, rightValue]; rfl⟩

/-- A snippet without arithmetic that can be read has a value. -/
theorem Snippet.exists_eval {snippet : Snippet} (quiet : snippet.isArithmetic = false)
    {expr : Expr} (read : snippet.expression = .ok expr) (bindings : Variables) :
    ∃ value, expr.eval bindings = .ok value := by
  obtain ⟨lexemes, scanned, whole⟩ := Expr.bind_eq_ok_iff.1 read
  have unwritten (c : Char) (member : c ∈ snippet.source.toList) : c ∉ Lexeme.arithmeticMarks := by
    simpa [Lexeme.arithmeticMarks] using List.any_eq_false.1 quiet c member
  exact (Expr.derives_of_ofLexemes whole).exists_eval
    (Lexeme.isArithmetic_of_scan scanned unwritten) bindings

end Script
end Pagelet
