import Pagelet.Proofs.Statement.Comments
import Pagelet.Proofs.Statement.Pieces
import Pagelet.Script.Statement.Reader

/-!
# Scripts one after the other

A script that ends outside strings and brackets leaves the scanner as it found it, even
when its last line is a comment.  On a new line behind it, a further script has the
statements that it has alone.
-/

namespace Pagelet
namespace Script

/-- The scanner that splits the script reads it to an end outside strings, with no bracket
open. -/
def EndsFlat (source : String) : Prop :=
  ({} : Nesting).after (dropComments (.code .outside) source.toList) = {}

instance (source : String) : Decidable (EndsFlat source) :=
  inferInstanceAs (Decidable (_ = _))

variable {first : String}

theorem EndsFlat.after_quotation (flat : EndsFlat first) :
    Text.Quotation.outside.after marks (dropComments (.code .outside) first.toList) =
      .outside :=
  Nesting.quotation_of_settles flat

/-- The line end is in no comment, or ends one, and in no string and no bracket. -/
theorem EndsFlat.splitStatements_lineEnd (flat : EndsFlat first) (second : List Char) :
    splitStatements (first.toList ++ '\n' :: second) =
      splitStatements first.toList ++ splitStatements second := by
  have cut (rest : List Char) : pieces {} ('\n' :: rest) = [] :: pieces {} rest := rfl
  rw [splitStatements_eq, dropComments_lineEnd (.code .outside) _ _ flat.after_quotation,
    pieces_append, flat, cut,
    glue_nil_cons (pieces_ne_nil _ _), solid_append]
  rfl

/-- Two scripts on lines of their own have the statements of each. -/
theorem EndsFlat.program_lineEnd (flat : EndsFlat first) (second : String) :
    program (first ++ "\n" ++ second) = program first ++ program second := by
  have lines : (first ++ "\n" ++ second).toList = first.toList ++ '\n' :: second.toList := by
    simp
  rw [program, lines, flat.splitStatements_lineEnd, List.map_append]
  rfl

end Script
end Pagelet
