import Mathlib.Data.List.DropRight
import Pagelet.Text.Blank

/-!
# Trimmed texts

Trimming takes blanks off both ends of a text and nothing else, so a text is its
trimmed form between two blank texts.
-/

namespace Pagelet
namespace Text

/-- Every character of the text is a blank. -/
def IsBlankText (cs : List Char) : Prop :=
  ∀ c ∈ cs, isBlank c = true

variable {cs lead tail : List Char}

theorem isBlankText_nil : IsBlankText [] := by
  intro c member
  exact absurd member List.not_mem_nil

theorem trimStart_eq_nil (blank : IsBlankText cs) : trimStart cs = [] :=
  List.dropWhile_eq_nil_iff.2 blank

theorem trimEnd_eq_nil (blank : IsBlankText cs) : trimEnd cs = [] :=
  List.rdropWhile_eq_nil_iff.2 blank

theorem trim_eq_nil (blank : IsBlankText cs) : trim cs = [] := by
  rw [trim, trimStart_eq_nil blank]
  rfl

theorem trimStart_append (blank : IsBlankText lead) (cs : List Char) :
    trimStart (lead ++ cs) = trimStart cs :=
  List.dropWhile_append_of_pos blank

/-- Blanks at the end do not count. -/
theorem trimEnd_append (blank : IsBlankText tail) (cs : List Char) :
    trimEnd (cs ++ tail) = trimEnd cs := by
  rw [trimEnd, List.reverse_append, List.dropWhile_append_of_pos]
  · rfl
  · intro c member
    exact blank c (List.mem_reverse.1 member)

/-- A blank text in front and one behind make no difference to the trimmed text. -/
theorem trim_append (leadBlank : IsBlankText lead) (tailBlank : IsBlankText tail)
    (cs : List Char) : trim (lead ++ cs ++ tail) = trim cs := by
  rw [trim, List.append_assoc, trimStart_append leadBlank, trim, trimStart,
    List.dropWhile_append]
  split
  · next empty =>
    rw [List.isEmpty_iff] at empty
    rw [trimStart, empty]
    apply trimEnd_eq_nil
    intro c member
    exact tailBlank c ((List.dropWhile_suffix _).subset member)
  · exact trimEnd_append tailBlank _

theorem trimStart_cons_of_blank {c : Char} (blank : isBlank c = true) (cs : List Char) :
    trimStart (c :: cs) = trimStart cs :=
  List.dropWhile_cons_of_pos blank

theorem trimStart_eq_self (starts : startsBlank cs = false) : trimStart cs = cs := by
  cases cs with
  | nil => rfl
  | cons c rest => exact List.dropWhile_cons_of_neg (by simpa [startsBlank] using starts)

/-- A text with no blank at its ends is trimmed. -/
theorem trim_eq_self (starts : startsBlank cs = false) (ends : endsBlank cs = false) :
    trim cs = cs := by
  have reversed : trimStart cs.reverse = cs.reverse := trimStart_eq_self ends
  rw [trim, trimStart_eq_self starts, trimEnd]
  exact (congrArg List.reverse reversed).trans (List.reverse_reverse cs)

theorem startsBlank_trimStart (cs : List Char) : startsBlank (trimStart cs) = false := by
  cases front : trimStart cs with
  | nil => rfl
  | cons c rest => exact trimStart_eq_cons front

/-- Nothing that was trimmed ends with a blank. -/
theorem endsBlank_trim (cs : List Char) : endsBlank (trim cs) = false := by
  rw [trim, trimEnd, endsBlank, List.reverse_reverse]
  exact startsBlank_trimStart _

theorem startsBlank_trim (cs : List Char) : startsBlank (trim cs) = false := by
  cases front : trim cs with
  | nil => rfl
  | cons c rest =>
      have front_prefix : c :: rest <+: trimStart cs := front ▸ List.rdropWhile_prefix isBlank _
      obtain ⟨behind, whole⟩ := front_prefix
      exact trimStart_eq_cons whole.symm

theorem endsBlank_append {back : List Char} (notEmpty : back ≠ []) (front : List Char) :
    endsBlank (front ++ back) = endsBlank back := by
  obtain ⟨c, rest, reversed⟩ := List.exists_cons_of_ne_nil (List.reverse_ne_nil_iff.2 notEmpty)
  simp [endsBlank, reversed, startsBlank]

theorem startsBlank_append {front : List Char} (notEmpty : front ≠ []) (back : List Char) :
    startsBlank (front ++ back) = startsBlank front := by
  obtain ⟨c, rest, rfl⟩ := List.exists_cons_of_ne_nil notEmpty
  rfl

theorem endsBlank_eq_true (notEmpty : cs ≠ []) (blank : IsBlankText cs) :
    endsBlank cs = true := by
  obtain ⟨c, rest, reversed⟩ := List.exists_cons_of_ne_nil (List.reverse_ne_nil_iff.2 notEmpty)
  rw [endsBlank, reversed]
  exact blank c (List.mem_reverse.1 (reversed ▸ List.mem_cons_self))

/-- Behind a text only blanks that are there make it end in a blank. -/
theorem endsBlank_append_blank (blank : IsBlankText cs) (front : List Char) :
    endsBlank (front ++ cs) = (endsBlank front || !cs.isEmpty) := by
  cases cs with
  | nil => simp
  | cons c rest =>
      have notEmpty : c :: rest ≠ [] := List.cons_ne_nil c rest
      rw [endsBlank_append notEmpty, endsBlank_eq_true notEmpty blank]
      simp

/-- Every text is its trimmed form between two blank texts. -/
theorem exists_eq_append_trim (cs : List Char) :
    ∃ lead tail, IsBlankText lead ∧ IsBlankText tail ∧ cs = lead ++ trim cs ++ tail := by
  refine ⟨cs.takeWhile isBlank, (trimStart cs).rtakeWhile isBlank, ?_, ?_, ?_⟩
  · intro c member
    exact List.mem_takeWhile_imp member
  · intro c member
    exact List.mem_rtakeWhile_imp member
  · rw [List.append_assoc]
    calc
      cs = cs.takeWhile isBlank ++ trimStart cs := List.takeWhile_append_dropWhile.symm
      _ = _ := congrArg _ List.rdropWhile_append_rtakeWhile.symm

/-- What trims to nothing is blank. -/
theorem isBlankText_of_trim_eq_nil (empty : trim cs = []) : IsBlankText cs := by
  obtain ⟨lead, tail, leadBlank, tailBlank, whole⟩ := exists_eq_append_trim cs
  rw [whole, empty, List.append_nil]
  exact List.forall_mem_append.2 ⟨leadBlank, tailBlank⟩

/-- A text that does not start with a blank is its trimmed form with a blank text behind. -/
theorem exists_eq_trim_append (starts : startsBlank cs = false) :
    ∃ tail, IsBlankText tail ∧ cs = trim cs ++ tail := by
  refine ⟨cs.rtakeWhile isBlank, fun c member => List.mem_rtakeWhile_imp member, ?_⟩
  rw [trim, trimStart_eq_self starts]
  exact List.rdropWhile_append_rtakeWhile.symm

/-- In front of a character that is no blank, trimming takes off leading blanks alone. -/
theorem exists_trim_concat {c : Char} (solid : isBlank c = false) (cs : List Char) :
    ∃ lead rest, IsBlankText lead ∧ cs = lead ++ rest ∧ trim (cs ++ [c]) = rest ++ [c] := by
  refine ⟨cs.takeWhile isBlank, trimStart cs, fun d member => List.mem_takeWhile_imp member,
    List.takeWhile_append_dropWhile.symm, ?_⟩
  have whole : cs ++ [c] = cs.takeWhile isBlank ++ (trimStart cs ++ [c]) ++ [] := by
    rw [List.append_nil, ← List.append_assoc]
    exact congrArg (· ++ [c]) List.takeWhile_append_dropWhile.symm
  have starts : startsBlank (trimStart cs ++ [c]) = false := by
    cases rest : trimStart cs with
    | nil => exact solid
    | cons d rest => exact trimStart_eq_cons rest
  rw [whole, trim_append (fun d member => List.mem_takeWhile_imp member) isBlankText_nil]
  apply trim_eq_self starts
  rw [endsBlank_append (List.cons_ne_nil c [])]
  exact solid

/-- The text is `core` between two blank texts, which take in all blanks at its ends. -/
def TrimsTo (cs core : List Char) : Prop :=
  ∃ lead tail, cs = lead ++ core ++ tail ∧ IsBlankText lead ∧ IsBlankText tail ∧
    startsBlank core = false ∧ endsBlank core = false

/-- Trimming leaves the one text between blanks that has none at its ends. -/
theorem trim_eq_iff {core : List Char} : trim cs = core ↔ TrimsTo cs core := by
  constructor
  · rintro rfl
    obtain ⟨lead, tail, leadBlank, tailBlank, whole⟩ := exists_eq_append_trim cs
    exact ⟨lead, tail, whole, leadBlank, tailBlank, startsBlank_trim cs, endsBlank_trim cs⟩
  · rintro ⟨lead, tail, rfl, leadBlank, tailBlank, starts, ends⟩
    rw [trim_append leadBlank tailBlank, trim_eq_self starts ends]

theorem trim_trim (cs : List Char) : trim (trim cs) = trim cs := by
  obtain ⟨lead, tail, leadBlank, tailBlank, whole⟩ := exists_eq_append_trim cs
  calc
    trim (trim cs) = trim (lead ++ trim cs ++ tail) := (trim_append leadBlank tailBlank _).symm
    _ = trim cs := by rw [← whole]

end Text
end Pagelet
