import Mathlib
import Pagelet.Text.Offset

/-!
# Cuts at offsets

A text may be cut between any two of its characters, and what lies between two cuts is
made of the characters there.
-/

namespace Pagelet
namespace Text

variable {text : String} {first last : Nat}

/-- A text may be cut behind any of its fronts. -/
theorem isBoundary_of_append (front back : List Char) (whole : text.toList = front ++ back)
    (place : first = String.utf8Len front) : isBoundary text first = true := by
  rw [isBoundary, String.Pos.Raw.isValid_eq_true_iff, String.Pos.Raw.isValid_iff_exists_append]
  refine ⟨String.ofList front, String.ofList back, ?_, ?_⟩
  · rw [← String.ofList_append, ← whole, String.ofList_toList]
  · rw [place, String.Pos.Raw.ext_iff, String.byteIdx_rawEndPos, String.utf8ByteSize_ofList]

/-- Between two cuts stand the characters that lie between them. -/
theorem between_of_append (front middle back : List Char)
    (whole : text.toList = front ++ middle ++ back) (start : first = String.utf8Len front)
    (stop : last = String.utf8Len front + String.utf8Len middle) :
    between text first last = String.ofList middle := by
  rw [between, ← String.ofList_toList (s := text), whole, start, stop]
  exact String.extract_of_valid front middle back

end Text
end Pagelet
