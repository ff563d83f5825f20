/-!
# Ranges of code points

A property of characters is given as a list of ranges of code points, both ends
included.
-/

namespace Pagelet
namespace Text

/-- A range of code points, by its first and its last member. -/
abbrev CodeRange := Nat × Nat

/-- Whether a code point lies in one of the ranges. -/
def inRanges (ranges : List CodeRange) (code : Nat) : Bool :=
  ranges.any fun (first, last) => first ≤ code && code ≤ last

end Text
end Pagelet
