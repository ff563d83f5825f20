import Pagelet.Script.Brackets
import Pagelet.Text.Blank

/-!
# Splitting a script into statements

Statements end at a semicolon or a line end outside strings and brackets, and
right behind the brace that closes an outermost block.  Line comments are
dropped first; what they hold opens and closes nothing.
-/

namespace Pagelet
namespace Script

open Text (Quotation Region)

/-- The text without its comments, which run to the end of their line; the line
ends stay. -/
def dropComments : Region → List Char → List Char
  | _, [] => []
  | .comment, c :: rest =>
      if c = '\n' then c :: dropComments (.code .outside) rest
      else dropComments .comment rest
  | .code state, c :: rest =>
      if state = .outside ∧ c = '/' ∧ rest.head? = some '/' then
        dropComments .comment rest
      else c :: dropComments (.code (state.next marks c)) rest

/-- How deep a scanner stands in strings and brackets.  A closing bracket without
a partner changes nothing.  The counts have no bound; words of 32 bits that stay at
their greatest value differ from them only where `2 ^ 32` brackets stand open. -/
structure Nesting where
  /-- The string that is open, if any. -/
  quotation : Quotation := .outside
  /-- How many braces are open. -/
  braces : Nat := 0
  /-- How many parentheses are open. -/
  parens : Nat := 0
deriving DecidableEq, Repr

namespace Nesting

/-- The nesting after one more character. -/
def next (nesting : Nesting) (c : Char) : Nesting :=
  let after := { nesting with quotation := nesting.quotation.next marks c }
  if nesting.quotation.covers marks c then after
  else
    match c with
    | '{' => { after with braces := nesting.braces + 1 }
    | '}' => { after with braces := nesting.braces - 1 }
    | '(' => { after with parens := nesting.parens + 1 }
    | ')' => { after with parens := nesting.parens - 1 }
    | _ => after

/-- Outside every string and every bracket. -/
def isFlat (nesting : Nesting) : Bool :=
  nesting.quotation == .outside && nesting.braces == 0 && nesting.parens == 0

/-- Whether the character separates two statements, belonging to neither. -/
def separates (nesting : Nesting) (c : Char) : Bool :=
  nesting.isFlat && (c == ';' || c == '\n')

/-- Whether the character is the last of a statement that ends with a block. -/
def closesBlock (nesting : Nesting) (c : Char) : Bool :=
  c == '}' && !nesting.quotation.covers marks c && (nesting.next c).isFlat

end Nesting

/-- The pieces of a text without comments, cut at every separator and behind
every block. -/
def pieces : Nesting → List Char → List (List Char)
  | _, [] => [[]]
  | nesting, c :: rest =>
      let others := pieces (nesting.next c) rest
      if nesting.separates c then [] :: others
      else if nesting.closesBlock c then [c] :: others
      else others.modifyHead (c :: ·)

/-- The statement texts of a script, in order, without blanks at their ends. -/
def splitStatements (source : List Char) : List (List Char) :=
  ((pieces {} (dropComments (.code .outside) source)).map Text.trim).filter (!·.isEmpty)

end Script
end Pagelet
