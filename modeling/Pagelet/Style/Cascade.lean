import Pagelet.Markup.Attributes
import Pagelet.Style.Sheet

/-!
# The cascade

The style of a start tag merges the rules that apply to it: the rule of the tag's
name, of its first class, of its id, and its own `style` attribute, each winning
over the ones before.  Resolved styles are kept in a list, one entry for each
tag, and the computed style of an element merges the entries of its chain.
-/

namespace Pagelet
namespace Style

open Markup (Attributes)

/-- The selector of the first class that the attributes name. -/
def classSelector? (attributes : Attributes) : Option String := do
  let value ← attributes.get? "class"
  let name ← (Text.words value.toList).head?
  some (String.ofList ('.' :: name))

/-- The selector of the id that the attributes give, without blanks at its ends. -/
def idSelector? (attributes : Attributes) : Option String := do
  let value ← attributes.get? "id"
  match Text.trim value.toList with
  | [] => none
  | name => some (String.ofList ('#' :: name))

/-- The properties of the `style` attribute. -/
def inlineProperties? (attributes : Attributes) : Option Properties :=
  (attributes.get? "style").map Properties.parse

/-- The sets of properties that apply to a tag, the weakest first. -/
def RuleTable.layers (table : RuleTable) (tag : String) (attributes : Attributes) :
    List Properties :=
  [ table.rule? tag,
    (classSelector? attributes).bind table.rule?,
    (idSelector? attributes).bind table.rule?,
    inlineProperties? attributes ].filterMap id

/-- The style of a start tag. -/
def RuleTable.resolve (table : RuleTable) (tag : String) (attributes : Attributes) :
    Properties :=
  Properties.mergeAll (table.layers tag attributes)

/-- The place of a resolved style in the list of them. -/
structure StyleRef where
  /-- The position, from zero. -/
  index : Nat
deriving DecidableEq, Repr

/-- The reference as messages show it. -/
def StyleRef.shown (ref : StyleRef) : String :=
  "style-" ++ toString ref.index

/-- The resolved styles of the tags read so far. -/
structure ResolvedStyles where
  /-- The styles, in the order of their tags. -/
  entries : List Properties := []
deriving DecidableEq, Inhabited

namespace ResolvedStyles

/-- The number of styles. -/
def size (styles : ResolvedStyles) : Nat :=
  styles.entries.length

/-- The reference that the next style will have. -/
def nextRef (styles : ResolvedStyles) : StyleRef :=
  ⟨styles.size⟩

/-- The list with one more style at its end. -/
def push (styles : ResolvedStyles) (properties : Properties) : ResolvedStyles :=
  ⟨styles.entries ++ [properties]⟩

/-- The style at a reference. -/
def get? (styles : ResolvedStyles) (ref : StyleRef) : Option Properties :=
  styles.entries[ref.index]?

/-- The styles of a chain merged, the outermost first, so that inner ones win.
References to no style are passed over. -/
def computed (styles : ResolvedStyles) (chain : List StyleRef) : Properties :=
  Properties.mergeAll (chain.filterMap styles.get?)

end ResolvedStyles

end Style
end Pagelet
