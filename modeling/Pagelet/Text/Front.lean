/-!
# Fixed beginnings of a text
-/

namespace Pagelet
namespace Text

/-- The text behind a fixed beginning, if it begins so. -/
def behind? : List Char → List Char → Option (List Char)
  | [], cs => some cs
  | _ :: _, [] => none
  | a :: front, c :: cs => if a = c then behind? front cs else none

/-- A text has a rest behind a beginning exactly when it is the beginning and
that rest. -/
theorem behind?_eq_some_iff {front cs rest : List Char} :
    behind? front cs = some rest ↔ cs = front ++ rest := by
  induction front generalizing cs with
  | nil => simp [behind?]
  | cons a front ih =>
      cases cs with
      | nil => simp [behind?]
      | cons c cs =>
          by_cases same : a = c
          · simp [behind?, same, ih]
          · simp [behind?, same, Ne.symm same]

end Text
end Pagelet
