import Std.Data.ExtTreeMap

/-!
# Style properties

The properties that a declaration block sets.  Five of them are understood; the
others are kept by name as they were written.  Merging two blocks lets the later
one win, property by property.
-/

namespace Pagelet
namespace Style

/-- How heavy a font is. -/
inductive FontWeight
  | normal
  | bold
deriving DecidableEq, Repr

/-- The name of a weight. -/
def FontWeight.name : FontWeight → String
  | normal => "normal"
  | bold => "bold"

/-- The properties set by declarations; the ones not set are absent. -/
structure Properties where
  /-- The text colour. -/
  color : Option String := none
  /-- The background colour. -/
  background : Option String := none
  /-- The font's weight. -/
  weight : Option FontWeight := none
  /-- The font's size in points. -/
  size : Option Nat := none
  /-- The font families, the preferred one first. -/
  families : Option (List String) := none
  /-- Every other property, by its name. -/
  others : Std.ExtTreeMap String String compare := ∅
deriving DecidableEq, Inhabited

namespace Properties

/-- How many properties are set. -/
def count (properties : Properties) : Nat :=
  [properties.color.isSome, properties.background.isSome, properties.weight.isSome,
    properties.size.isSome, properties.families.isSome].countP id + properties.others.size

/-- Whether no property is set. -/
def isEmpty (properties : Properties) : Bool :=
  properties.count == 0

/-- Both sets of properties together; where both set one, `later` wins. -/
def merge (earlier later : Properties) : Properties where
  color := later.color.or earlier.color
  background := later.background.or earlier.background
  weight := later.weight.or earlier.weight
  size := later.size.or earlier.size
  families := later.families.or earlier.families
  others := earlier.others ∪ later.others

/-- Merges many sets of properties, later ones winning. -/
def mergeAll (layers : List Properties) : Properties :=
  layers.foldl merge {}

/-- The preferred font family. -/
def primaryFamily? (properties : Properties) : Option String :=
  properties.families.bind List.head?

/-- The value of a property that is not one of the five. -/
def other? (properties : Properties) (name : String) : Option String :=
  properties.others[name]?

/-- A short description: colours, boldness, size and preferred family. -/
def describe (properties : Properties) : String :=
  "; ".intercalate <| List.flatten
    [ (properties.color.map ("color: " ++ ·)).toList,
      (properties.background.map ("background: " ++ ·)).toList,
      if properties.weight = some .bold then [FontWeight.bold.name] else [],
      (properties.size.map fun size => "size: " ++ toString size).toList,
      (properties.primaryFamily?.map ("font: " ++ ·)).toList ]

theorem merge_empty (properties : Properties) : properties.merge {} = properties := by
  cases properties
  simp only [merge, Option.none_or, mk.injEq, true_and]
  exact Std.ExtTreeMap.ext_getElem? fun name => by
    rw [Std.ExtTreeMap.getElem?_union]
    simp

theorem empty_merge (properties : Properties) : merge {} properties = properties := by
  cases properties
  simp only [merge, Option.or_none, mk.injEq, true_and]
  exact Std.ExtTreeMap.ext_getElem? fun name => by
    rw [Std.ExtTreeMap.getElem?_union]
    simp

/-- Merging is associative, so the layers of a cascade can be merged in any grouping. -/
theorem merge_assoc (first second third : Properties) :
    (first.merge second).merge third = first.merge (second.merge third) := by
  simp only [merge, Option.or_assoc, mk.injEq, true_and]
  exact Std.ExtTreeMap.ext_getElem? fun name => by
    simp [Std.ExtTreeMap.getElem?_union, Option.or_assoc]

end Properties

end Style
end Pagelet
