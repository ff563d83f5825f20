import Pagelet.Markup.Attributes

/-!
# Tokens of markup

Markup is read as start tags, end tags and runs of text, in source order.
-/

namespace Pagelet
namespace Markup

/-- A piece of markup. -/
inductive Token
  /-- A start tag. -/
  | start (name : String) (attributes : Attributes) (selfClosing : Bool)
  /-- An end tag. -/
  | finish (name : String)
  /-- A run of text. -/
  | text (content : String)
deriving DecidableEq, Repr

/-- The elements that never take an end tag. -/
def voidNames : List String :=
  ["area", "base", "br", "col", "embed", "hr", "img", "input", "link", "meta", "param",
    "source", "track", "wbr"]

/-- Whether elements of this name never take an end tag. -/
def isVoid (name : String) : Bool :=
  voidNames.contains name

/-- The elements whose bodies hold no markup. -/
def rawNames : List String := ["script", "style"]

end Markup
end Pagelet
