import Pagelet.Style.Cascade

/-!
# Elements

An element of a document has an identity, a kind, and the data that markup and
scripts give it.  Text and click handlers set by a script stand beside what the
markup says and win over it.
-/

namespace Pagelet
namespace Document

open Markup (Attributes)
open Style (StyleRef)

/-- The identity of an element.  The two kinds never coincide. -/
inductive ElementId
  /-- The id that the markup or the caller gives. -/
  | explicit (id : String)
  /-- The number given to an element without an id. -/
  | generated (number : Nat)
deriving DecidableEq, Repr

/-- The identity as messages show it. -/
def ElementId.shown : ElementId → String
  | explicit id => "#" ++ id
  | generated number => "@" ++ toString number

/-- What an element stands for. -/
inductive ElementKind
  /-- A start tag, by its name in small letters. -/
  | tag (name : String)
  /-- Text that a script wrote. -/
  | text
  /-- A forced line break. -/
  | lineBreak
  /-- The end of a block. -/
  | blockEnd (name : String)
deriving DecidableEq, Repr

namespace ElementKind

/-- Whether the element only says where a line ends. -/
def isMarker : ElementKind → Bool
  | lineBreak => true
  | blockEnd _ => true
  | _ => false

/-- The name of a tag. -/
def tagName? : ElementKind → Option String
  | tag name => some name
  | _ => none

/-- The kind as listings show it. -/
def shown : ElementKind → String
  | tag name => name
  | text => "text"
  | lineBreak => "br"
  | blockEnd name => "end_" ++ name

end ElementKind

/-- A listener for the text of an element, by its number. -/
structure Handle where
  /-- The number; no two listeners share one. -/
  number : Nat
deriving DecidableEq, Repr

/-- One element of a document. -/
structure Element where
  /-- The identity. -/
  id : ElementId
  /-- What the element stands for. -/
  kind : ElementKind
  /-- The text that the markup gives, if any. -/
  content : Option String := none
  /-- The attributes of the start tag. -/
  attributes : Attributes := []
  /-- The text that a script set. -/
  textOverride : Option String := none
  /-- The click handler that a script set. -/
  clickOverride : Option String := none
  /-- The style references of the enclosing tags, the innermost last. -/
  chain : List StyleRef := []
  /-- The listener bound to the element. -/
  handle : Option Handle := none
deriving DecidableEq, Repr

namespace Element

/-- The text to show: the one a script set, else the markup's. -/
def text (element : Element) : Option String :=
  element.textOverride.or element.content

/-- The handler to run on a click: the one a script set, else the `onclick`
attribute.  A blank handler counts as none. -/
def clickHandler? (element : Element) : Option String :=
  (element.clickOverride.or (element.attributes.get? "onclick")).filter fun handler =>
    !(Text.trim handler.toList).isEmpty

/-- The element with more text behind its content.  If `separated` is set, one
space keeps the new text apart from text that is there already. -/
def append (element : Element) (fragment : String) (separated : Bool) : Element :=
  { element with
    content := some <|
      match element.content with
      | none => fragment
      | some content =>
          if content.isEmpty then fragment
          else content ++ (if separated then " " else "") ++ fragment }

end Element

end Document
end Pagelet
