import Mathlib.Data.List.Basic
import Mathlib.Data.List.Induction
import Mathlib.Tactic.IntervalCases
import Pagelet.Text.Numeral

/-!
# Numerals that are read back

A run of digits writes one number: made small, and without the zeros in front, it is the numeral
that the number is printed with.  Reading a run of digits gives the number that it writes, and a
text that writes no number is not read.
-/

namespace Pagelet
namespace Text

/-- The digits write the number in a base: in either letter case, with any number of zeros in
front. -/
def Writes (base : Nat) (digits : List Char) (number : Nat) : Prop :=
  ∃ zeros, digits.map Char.toLower = List.replicate zeros '0' ++ Nat.toDigits base number

theorem toNat_toLower (c : Char) :
    c.toLower.toNat = if 65 ≤ c.toNat ∧ c.toNat ≤ 90 then c.toNat + 32 else c.toNat := by
  have bounds : c.val ≥ 'A'.val ∧ c.val ≤ 'Z'.val ↔ 65 ≤ c.toNat ∧ c.toNat ≤ 90 := by
    simp [UInt32.le_iff_toNat_le]
  unfold Char.toLower
  split
  · next capital =>
    have codes := bounds.1 capital
    rw [if_pos codes]
    change (c.val + 32).toNat = c.toNat + 32
    rw [UInt32.toNat_add]
    change (c.toNat + 32) % 2 ^ 32 = c.toNat + 32
    omega
  · next other => rw [if_neg fun codes => other (bounds.2 codes)]

/-- The digit of a value is found in the table of characters. -/
theorem toNat_digitChar {value : Nat} (small : value < 16) :
    (Nat.digitChar value).toNat = if value < 10 then value + 48 else value + 87 := by
  interval_cases value <;> rfl

/-- The value of a digit, by the three ranges of codes. -/
theorem digit?_eq_some_iff_toNat {base : Nat} {c : Char} {value : Nat} :
    digit? base c = some value ↔
      value < base ∧ (48 ≤ c.toNat ∧ c.toNat ≤ 57 ∧ value + 48 = c.toNat ∨
        97 ≤ c.toNat ∧ c.toNat ≤ 102 ∧ value + 87 = c.toNat ∨
        65 ≤ c.toNat ∧ c.toNat ≤ 70 ∧ value + 55 = c.toNat) := by
  have le (a b : Char) : a ≤ b ↔ a.toNat ≤ b.toNat := Iff.rfl
  simp only [digit?, le, Char.reduceToNat, Option.filter_eq_some_iff, decide_eq_true_eq]
  split
  · simp only [Option.some.injEq]
    omega
  · split
    · simp only [Option.some.injEq]
      omega
    · split
      · simp only [Option.some.injEq]
        omega
      · simp only [reduceCtorEq, false_and, false_iff]
        omega

/-- A character has a value as a digit if made small it is the digit of this value. -/
theorem digit?_eq_some_iff {base : Nat} (atMost : base ≤ 16) {c : Char} {value : Nat} :
    digit? base c = some value ↔ value < base ∧ c.toLower = Nat.digitChar value := by
  rw [digit?_eq_some_iff_toNat]
  refine and_congr_right fun small => ?_
  rw [← Char.toNat_inj, toNat_toLower, toNat_digitChar (by omega)]
  split <;> split <;> omega

theorem digits?_singleton (base : Nat) (c : Char) : digits? base [c] = digit? base c := by
  cases value : digit? base c <;> simp [digits?, value]

/-- A digit behind a number shifts it by the base. -/
theorem digits?_concat {base : Nat} {front : List Char} (notEmpty : front ≠ []) (c : Char) :
    digits? base (front ++ [c]) =
      (digits? base front).bind fun number => (digit? base c).map (number * base + ·) := by
  have kept : (front ++ [c]).isEmpty = false := by simp
  have full : front.isEmpty = false := by simpa using notEmpty
  rw [digits?, digits?, kept, full, if_neg Bool.false_ne_true, if_neg Bool.false_ne_true,
    List.foldlM_append]
  simp

section Writes

variable {base : Nat} {front : List Char} {c : Char} {number : Nat}

theorem not_writes_nil : ¬ Writes base [] number := by
  rintro ⟨zeros, whole⟩
  exact Nat.toDigits_ne_nil (List.append_eq_nil_iff.1 whole.symm).2

/-- A single digit writes a number below the base. -/
theorem writes_singleton (atLeast : 1 < base) :
    Writes base [c] number ↔ number < base ∧ c.toLower = Nat.digitChar number := by
  constructor
  · rintro ⟨zeros, whole⟩
    have lengths := congrArg List.length whole
    simp only [List.length_map, List.length_singleton, List.length_append,
      List.length_replicate] at lengths
    have some : 0 < (Nat.toDigits base number).length := Nat.length_toDigits_pos
    obtain rfl : zeros = 0 := by omega
    have single : (Nat.toDigits base number).length ≤ 1 := by omega
    have small : number < base := by
      simpa using (Nat.length_toDigits_le_iff atLeast Nat.one_pos).1 single
    rw [Nat.toDigits_of_lt_base small] at whole
    exact ⟨small, (List.cons.inj whole).1⟩
  · rintro ⟨small, digit⟩
    exact ⟨0, by simp [digit, Nat.toDigits_of_lt_base small]⟩

/-- A digit more makes the number one place longer. -/
theorem writes_concat (atLeast : 1 < base) (notEmpty : front ≠ []) :
    Writes base (front ++ [c]) number ↔
      ∃ high low, Writes base front high ∧ (low < base ∧ c.toLower = Nat.digitChar low) ∧
        high * base + low = number := by
  constructor
  · rintro ⟨zeros, whole⟩
    rw [List.map_append, List.map_singleton] at whole
    by_cases small : number < base
    · -- all digits in front are zeros, one of which is the number in front
      rw [Nat.toDigits_of_lt_base small] at whole
      obtain ⟨inFront, last⟩ := List.append_inj' whole rfl
      cases zeros with
      | zero => exact absurd (List.map_eq_nil_iff.1 inFront) notEmpty
      | succ zeros =>
          refine ⟨0, number, ⟨zeros, ?_⟩, ⟨small, (List.cons.inj last).1⟩, by omega⟩
          rw [inFront, List.replicate_succ', Nat.toDigits_zero]
    · rw [Nat.toDigits_of_base_le atLeast (Nat.le_of_not_lt small), ← List.append_assoc] at whole
      obtain ⟨inFront, last⟩ := List.append_inj' whole rfl
      exact ⟨number / base, number % base, ⟨zeros, inFront⟩,
        ⟨Nat.mod_lt _ (by omega), (List.cons.inj last).1⟩, Nat.div_add_mod' number base⟩
  · rintro ⟨high, low, ⟨zeros, inFront⟩, ⟨small, digit⟩, rfl⟩
    rw [Writes, List.map_append, inFront, List.map_singleton, digit,
      ← Nat.toDigits_of_lt_base small]
    rcases Nat.eq_zero_or_pos high with rfl | positive
    · refine ⟨zeros + 1, ?_⟩
      rw [Nat.toDigits_zero, List.replicate_succ', Nat.zero_mul, Nat.zero_add]
    · refine ⟨zeros, ?_⟩
      rw [List.append_assoc, Nat.toDigits_append_toDigits atLeast positive small, Nat.mul_comm]

end Writes

/-- A text is read as the number that it writes, and as none if it writes none. -/
theorem digits?_eq_some_iff {base : Nat} (atLeast : 1 < base) (atMost : base ≤ 16)
    {digits : List Char} {number : Nat} :
    digits? base digits = some number ↔ Writes base digits number := by
  induction digits using List.reverseRecOn generalizing number with
  | nil => exact ⟨fun read => (nomatch read), fun writes => absurd writes not_writes_nil⟩
  | append_singleton front c ih =>
      rcases List.eq_nil_or_concat' front with rfl | ⟨init, d, rfl⟩
      · rw [List.nil_append, digits?_singleton, digit?_eq_some_iff atMost,
          writes_singleton atLeast]
      · have notEmpty : init ++ [d] ≠ [] := by simp
        rw [digits?_concat notEmpty, writes_concat atLeast notEmpty]
        simp only [Option.bind_eq_some_iff, Option.map_eq_some_iff, ih,
          digit?_eq_some_iff atMost]
        exact ⟨fun ⟨high, writes, low, digit, sum⟩ => ⟨high, low, writes, digit, sum⟩,
          fun ⟨high, low, writes, digit, sum⟩ => ⟨high, writes, low, digit, sum⟩⟩

/-- A number is written by its own digits. -/
theorem writes_toDigits (number : Nat) : Writes 10 (Nat.toDigits 10 number) number := by
  have small {c : Char} (member : c ∈ Nat.toDigits 10 number) : c.toLower = c := by
    have digit := Nat.isDigit_of_mem_toDigits (by omega) (by omega) member
    have codes : 48 ≤ c.toNat ∧ c.toNat ≤ 57 := by
      simpa [Char.isDigit, UInt32.le_iff_toNat_le] using digit
    rw [← Char.toNat_inj, toNat_toLower, if_neg (by omega)]
  refine ⟨0, ?_⟩
  calc
    (Nat.toDigits 10 number).map Char.toLower = (Nat.toDigits 10 number).map id :=
      List.map_congr_left fun c member => small member
    _ = Nat.toDigits 10 number := List.map_id _

section Writes

variable {base : Nat} (atLeast : 1 < base) (atMost : base ≤ 16) {digits : List Char}
  {number : Nat}
include atLeast atMost

/-- A text that writes a number holds nothing but digits. -/
theorem isSome_digit?_of_writes (writes : Writes base digits number) :
    ∀ c ∈ digits, (digit? base c).isSome = true := by
  induction digits using List.reverseRecOn generalizing number with
  | nil => exact List.forall_mem_nil _
  | append_singleton front c ih =>
      rcases List.eq_nil_or_concat' front with rfl | ⟨init, d, rfl⟩
      · have single := (writes_singleton atLeast).1 writes
        simp [(digit?_eq_some_iff atMost).2 single]
      · obtain ⟨high, low, inFront, digit, -⟩ := (writes_concat atLeast (by simp)).1 writes
        rw [List.forall_mem_append, List.forall_mem_singleton]
        exact ⟨ih inFront, by simp [(digit?_eq_some_iff atMost).2 digit]⟩

/-- What is no digit does not occur in a number. -/
theorem not_mem_of_writes {c : Char} (noDigit : digit? base c = none)
    (writes : Writes base digits number) : c ∉ digits := by
  intro member
  have digit := isSome_digit?_of_writes atLeast atMost writes c member
  rw [noDigit] at digit
  cases digit

end Writes

/-- What may stand in front of an unsigned numeral. -/
def plusSigns : List (List Char) := [[], ['+']]

theorem digit?_plus (base : Nat) : digit? base '+' = none := by
  simp [digit?]

/-- A numeral is read as the number that its digits write, with a plus sign or without one. -/
theorem word32?_eq_some_iff {base : Nat} (atLeast : 1 < base) (atMost : base ≤ 16)
    {cs : List Char} {number : Nat} :
    word32? base cs = some number ↔
      (∃ sign ∈ plusSigns, ∃ digits, cs = sign ++ digits ∧ Writes base digits number) ∧
        number ≤ 0xFFFFFFFF := by
  have noPlus {rest : List Char} : ¬ Writes base ('+' :: rest) number := fun writes =>
    not_mem_of_writes atLeast atMost (digit?_plus base) writes List.mem_cons_self
  simp only [word32?, Option.filter_eq_some_iff, digits?_eq_some_iff atLeast atMost,
    decide_eq_true_eq, plusSigns, List.mem_cons, List.not_mem_nil, or_false, exists_eq_or_imp,
    exists_eq_left, List.nil_append, List.singleton_append, exists_eq_left']
  refine and_congr_left fun _ => ?_
  split
  · next rest => simp [noPlus]
  · next unsigned =>
    refine ⟨.inl, ?_⟩
    rintro (writes | ⟨digits, whole, -⟩)
    · exact writes
    · exact absurd whole (unsigned digits)

/-- The text writes the number in decimal: behind a minus sign if it is negative or zero, and
behind a plus sign or none if it is positive or zero. -/
def WritesSigned (cs : List Char) (number : Int) : Prop :=
  ∃ digits magnitude, Writes 10 digits magnitude ∧
    (cs = '-' :: digits ∧ number = -magnitude ∨
      ∃ sign ∈ plusSigns, cs = sign ++ digits ∧ number = magnitude)

/-- A word holds an integer exactly if it fits. -/
theorem exactInt64?_eq_some_iff {number : Int} {word : Int64} :
    exactInt64? number = some word ↔ word.toInt = number := by
  refine ⟨toInt_of_exactInt64?, ?_⟩
  rintro rfl
  have least := word.le_toInt
  have greatest := word.toInt_lt
  rw [exactInt64?, if_pos (by omega), Int64.ofInt_toInt]

/-- A numeral is read as the number that it writes, if the number fits. -/
theorem int64?_eq_some_iff {cs : List Char} {word : Int64} :
    int64? cs = some word ↔ WritesSigned cs word.toInt := by
  have noSign {c : Char} {rest : List Char} {number : Nat} (noDigit : digit? 10 c = none) :
      ¬ Writes 10 (c :: rest) number := fun writes =>
    not_mem_of_writes (by omega) (by omega) noDigit writes List.mem_cons_self
  have noMinus {rest : List Char} {number : Nat} : ¬ Writes 10 ('-' :: rest) number :=
    noSign rfl
  have noPlus {rest : List Char} {number : Nat} : ¬ Writes 10 ('+' :: rest) number :=
    noSign rfl
  have read (digits : List Char) (signed : Nat → Int) :
      ((digits? 10 digits).bind fun number => exactInt64? (signed number)) = some word ↔
        ∃ magnitude, Writes 10 digits magnitude ∧ word.toInt = signed magnitude := by
    simp only [Option.bind_eq_some_iff, digits?_eq_some_iff (by omega : 1 < 10) (by omega),
      exactInt64?_eq_some_iff]
  simp only [WritesSigned, plusSigns, List.mem_cons, List.not_mem_nil, or_false,
    exists_eq_or_imp, exists_eq_left, List.nil_append, List.singleton_append]
  unfold int64?
  split
  · next rest =>
    rw [read]
    refine ⟨fun ⟨magnitude, writes, value⟩ => ⟨rest, magnitude, writes, .inl ⟨rfl, value⟩⟩, ?_⟩
    rintro ⟨digits, magnitude, writes, ⟨same, value⟩ | ⟨rfl, -⟩ | ⟨⟨⟩, -⟩⟩
    · cases same
      exact ⟨magnitude, writes, value⟩
    · exact absurd writes noMinus
  · next rest =>
    rw [read]
    refine ⟨fun ⟨magnitude, writes, value⟩ =>
      ⟨rest, magnitude, writes, .inr (.inr ⟨rfl, value⟩)⟩, ?_⟩
    rintro ⟨digits, magnitude, writes, ⟨⟨⟩, -⟩ | ⟨rfl, -⟩ | ⟨same, value⟩⟩
    · exact absurd writes noPlus
    · cases same
      exact ⟨magnitude, writes, value⟩
  · next noMinusSign noPlusSign =>
    rw [read]
    refine ⟨fun ⟨magnitude, writes, value⟩ =>
      ⟨cs, magnitude, writes, .inr (.inl ⟨rfl, value⟩)⟩, ?_⟩
    rintro ⟨digits, magnitude, writes, ⟨signed, -⟩ | ⟨rfl, value⟩ | ⟨signed, -⟩⟩
    · exact absurd signed (noMinusSign digits)
    · exact ⟨magnitude, writes, value⟩
    · exact absurd signed (noPlusSign digits)

end Text
end Pagelet
