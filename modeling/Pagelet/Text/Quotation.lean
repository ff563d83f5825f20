/-!
# Quotations

Style sheets and scripts both hold quoted strings in which a backslash takes the
meaning from the character after it.  The scanner below follows such strings;
the characters that may open one are a parameter.
-/

namespace Pagelet
namespace Text

/-- Where a scanner stands with respect to quoted strings. -/
inductive Quotation
  /-- Outside every quoted string. -/
  | outside
  /-- Inside a string that `mark` opened. -/
  | inside (mark : Char)
  /-- Inside a string that `mark` opened, right after a backslash. -/
  | escaped (mark : Char)
deriving DecidableEq, Repr, Inhabited

/-- What a scanner that knows comments is reading. -/
inductive Region
  /-- Text outside comments. -/
  | code (state : Quotation)
  /-- A comment. -/
  | comment
deriving DecidableEq, Repr

namespace Quotation

/-- The state after one more character. -/
def next (marks : List Char) : Quotation → Char → Quotation
  | outside, c => if marks.contains c then inside c else outside
  | inside mark, c =>
      if c = '\\' then escaped mark else if c = mark then outside else inside mark
  | escaped mark, _ => inside mark

/-- Whether a character read in this state belongs to a quoted string; both
marks of a string belong to it. -/
def covers (marks : List Char) : Quotation → Char → Bool
  | outside, c => marks.contains c
  | _, _ => true

/-- The state after a whole text. -/
def after (marks : List Char) (state : Quotation) (cs : List Char) : Quotation :=
  cs.foldl (next marks) state

@[simp]
theorem after_cons (marks : List Char) (state : Quotation) (c : Char) (cs : List Char) :
    after marks state (c :: cs) = after marks (next marks state c) cs :=
  rfl

/-- The state behind two texts is that behind the second, begun in the state behind the first. -/
@[simp]
theorem after_append (marks : List Char) (state : Quotation) (first second : List Char) :
    after marks state (first ++ second) = after marks (after marks state first) second :=
  List.foldl_append

/-- A character outside quotes that is no mark leaves the scanner outside. -/
theorem next_of_not_covers {marks : List Char} {state : Quotation} {c : Char}
    (h : covers marks state c = false) : state = outside ∧ next marks state c = outside := by
  cases state with
  | outside =>
      have unmarked : marks.contains c = false := h
      refine ⟨rfl, ?_⟩
      rw [next, unmarked]
      rfl
  | inside mark => simp [covers] at h
  | escaped mark => simp [covers] at h

/-- Cuts a text at the first `target` outside quotes, which is dropped. -/
def cutAt (marks : List Char) (target : Char) :
    Quotation → List Char → Option (List Char × List Char)
  | _, [] => none
  | state, c :: rest =>
      if !covers marks state c && c == target then some ([], rest)
      else (cutAt marks target (next marks state c) rest).map fun (before, behind) =>
        (c :: before, behind)

/-- A cut loses the target alone. -/
theorem eq_of_cutAt {marks : List Char} {target : Char} {state : Quotation}
    {cs before behind : List Char}
    (h : cutAt marks target state cs = some (before, behind)) :
    cs = before ++ target :: behind := by
  induction cs generalizing state before with
  | nil => simp [cutAt] at h
  | cons c rest ih =>
      rw [cutAt] at h
      split at h
      · next here =>
        have same : c = target := by
          simp only [Bool.and_eq_true, beq_iff_eq] at here
          exact here.2
        simp only [Option.some.injEq, Prod.mk.injEq] at h
        obtain ⟨rfl, rfl⟩ := h
        simp [same]
      · obtain ⟨⟨front, back⟩, found, parts⟩ := Option.map_eq_some_iff.1 h
        simp only [Prod.mk.injEq] at parts
        obtain ⟨rfl, rfl⟩ := parts
        simp [ih found]

end Quotation

end Text
end Pagelet
