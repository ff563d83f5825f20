/-!
# Offsets

Places in a text are counted in bytes of UTF-8.  A text may be cut at the beginnings of
its characters and at its end, and nowhere else.
-/

namespace Pagelet
namespace Text

/-- Whether a text may be cut at the offset: a character begins there, or the text ends. -/
def isBoundary (text : String) (offset : Nat) : Bool :=
  String.Pos.Raw.isValid text ⟨offset⟩

/-- The text between two offsets at which it may be cut. -/
def between (text : String) (first last : Nat) : String :=
  String.Pos.Raw.extract text ⟨first⟩ ⟨last⟩

end Text
end Pagelet
