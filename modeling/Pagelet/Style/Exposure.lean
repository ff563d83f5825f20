import Pagelet.Text.Quotation

/-!
# Exposed characters

In declarations a separator counts only outside quoted strings and outside
parentheses and square brackets.  A character there is called exposed.
-/

namespace Pagelet
namespace Style

open Text (Quotation)

/-- The marks that open a string in a style sheet. -/
def marks : List Char := ['\'', '"']

/-- How deep a scanner stands in strings and brackets.  A closing bracket without
a partner changes nothing.  The count has no bound; a word of 32 bits that stays at its
greatest value differs from it only where `2 ^ 32` brackets stand open. -/
structure Cover where
  /-- The string that is open, if any. -/
  quotation : Quotation := .outside
  /-- How many parentheses and square brackets are open. -/
  depth : Nat := 0
deriving DecidableEq, Repr

namespace Cover

/-- The cover after one more character. -/
def next (cover : Cover) (c : Char) : Cover :=
  let after := { cover with quotation := cover.quotation.next marks c }
  if cover.quotation.covers marks c then after
  else if c = '(' ∨ c = '[' then { after with depth := cover.depth + 1 }
  else if c = ')' ∨ c = ']' then { after with depth := cover.depth - 1 }
  else after

/-- Whether a character read under this cover is exposed. -/
def exposes (cover : Cover) (c : Char) : Bool :=
  !cover.quotation.covers marks c && cover.depth == 0

/-- The cover after a whole text. -/
def after (cover : Cover) (cs : List Char) : Cover :=
  cs.foldl next cover

end Cover

/-- Every character of a text, with whether it is exposed. -/
def expose : Cover → List Char → List (Char × Bool)
  | _, [] => []
  | cover, c :: rest => (c, cover.exposes c) :: expose (cover.next c) rest

/-- Whether this is an exposed occurrence of the separator. -/
def isCut (separator : Char) (member : Char × Bool) : Bool :=
  member.2 && member.1 == separator

/-- The parts of a text between the exposed occurrences of a separator. -/
def splitExposed (separator : Char) (cs : List Char) : List (List Char) :=
  ((expose {} cs).splitOnP (isCut separator)).map (·.map Prod.fst)

/-- The text before and behind the first exposed occurrence of a separator. -/
def cutExposed? (separator : Char) (cs : List Char) : Option (List Char × List Char) :=
  let members := expose {} cs
  match members.dropWhile (!isCut separator ·) with
  | [] => none
  | _ :: behind =>
      some ((members.takeWhile (!isCut separator ·)).map Prod.fst, behind.map Prod.fst)

/-- Exposure marks the characters of a text and changes none. -/
theorem map_fst_expose (cover : Cover) (cs : List Char) :
    (expose cover cs).map Prod.fst = cs := by
  induction cs generalizing cover with
  | nil => rfl
  | cons c rest ih => simp [expose, ih]

/-- The second part of a text is exposed as the first part leaves the cover. -/
theorem expose_append (cover : Cover) (first second : List Char) :
    expose cover (first ++ second) =
      expose cover first ++ expose (cover.after first) second := by
  induction first generalizing cover with
  | nil => rfl
  | cons c rest ih => simp [expose, Cover.after, ih]

end Style
end Pagelet
