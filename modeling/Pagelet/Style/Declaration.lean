import Pagelet.Style.Exposure
import Pagelet.Style.Properties
import Pagelet.Text.Blank
import Pagelet.Text.LetterCase
import Pagelet.Text.Numeral

/-!
# Declaration blocks

A block is a list of declarations `name: value` between exposed semicolons.
Names are made small, values are made small and single-spaced.  A declaration
without a colon, a name or a usable value contributes nothing.
-/

namespace Pagelet
namespace Style

open Text (trim)

/-- The weight that a value names: numbers up to 500 are normal, larger ones bold. -/
def fontWeight? (value : List Char) : Option FontWeight :=
  if !value.isEmpty && value.all Char.isDigit then
    (Text.word32? 10 value).map fun number => if number ≤ 500 then .normal else .bold
  else
    match String.ofList value with
    | "normal" => some .normal
    | "lighter" => some .normal
    | "bold" => some .bold
    | "bolder" => some .bold
    | _ => none

/-- The number that the digits of a value write, whatever stands between them. -/
def fontSize? (value : List Char) : Option Nat :=
  Text.word32? 10 (value.filter Char.isDigit)

/-- The text without the quotation marks at its ends. -/
def unquote (cs : List Char) : List Char :=
  ((cs.dropWhile marks.contains).reverse.dropWhile marks.contains).reverse

/-- The families of a list between exposed commas, if there is any. -/
def fontFamilies? (value : List Char) : Option (List String) :=
  let families := (splitExposed ',' value).map fun family => trim (unquote (trim family))
  match families.filter (!·.isEmpty) with
  | [] => none
  | named => some (named.map String.ofList)

/-- The properties with one more declaration.  A value that one of the five known
properties cannot use leaves the properties as they are. -/
def Properties.declare (properties : Properties) (name value : String) : Properties :=
  match name with
  | "color" => { properties with color := some value }
  | "background-color" => { properties with background := some value }
  | "font-weight" => { properties with weight := (fontWeight? value.toList).or properties.weight }
  | "font-size" => { properties with size := (fontSize? value.toList).or properties.size }
  | "font-family" =>
      { properties with families := (fontFamilies? value.toList).or properties.families }
  | _ => { properties with others := properties.others.insert name value }

/-- The name and the value of a declaration, unless one of them is missing. -/
def declaration? (item : List Char) : Option (String × String) := do
  let (name, value) ← cutExposed? ':' (trim item)
  let name := Text.asciiLowercase (trim name)
  let value := Text.lowercase (Text.collapse value)
  if name.isEmpty || value.isEmpty then none
  else some (String.ofList name, String.ofList value)

/-- The declarations of a block, in order. -/
def declarations (block : List Char) : List (String × String) :=
  (splitExposed ';' block).filterMap declaration?

/-- The properties that a block sets. -/
def Properties.ofBlock (block : List Char) : Properties :=
  (declarations block).foldl (fun properties (name, value) => properties.declare name value) {}

/-- The properties that the text of a block sets. -/
def Properties.parse (block : String) : Properties :=
  Properties.ofBlock block.toList

end Style
end Pagelet
