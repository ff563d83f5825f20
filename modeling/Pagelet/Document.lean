import Pagelet.Document.Element

/-!
# Documents

A document is a sequence of elements to which elements are only ever added.
Elements are found by identity, the first of several winning.  Each text that a
script sets on an element with a listener is noted, in order, for that listener.
-/

namespace Pagelet
namespace Document

open Markup (Attributes)
open Style (StyleRef)

/-- A text that was set on an element with a listener. -/
structure Notice where
  /-- The listener. -/
  handle : Handle
  /-- The text that was set. -/
  text : String
deriving DecidableEq, Repr

/-- An element before it has its identity. -/
structure Draft where
  /-- What the element stands for. -/
  kind : ElementKind
  /-- The text of the element, if any. -/
  content : Option String := none
  /-- The attributes. -/
  attributes : Attributes := []
  /-- A text that already stands in for the content. -/
  textOverride : Option String := none
  /-- The style references of the enclosing tags. -/
  chain : List StyleRef := []
  /-- The id, if the element is to have one of its own. -/
  explicitId : Option String := none
deriving DecidableEq, Repr

end Document

/-- A sequence of elements, with the notices sent so far. -/
structure Document where
  /-- The elements, in the order in which they were added. -/
  elements : List Document.Element := []
  /-- The number for the next element without an id. -/
  nextNumber : Nat := 1
  /-- The notices sent so far, the oldest first. -/
  notices : List Document.Notice := []
deriving DecidableEq, Repr

namespace Document

/-- A document without elements, whose numbering begins at one. -/
def fresh : Document := {}

/-- A document without elements whose counter stands at zero; its numbering begins
at one all the same. -/
def unnumbered : Document := { nextNumber := 0 }

/-- The greatest number an element may have; the counter stops there. -/
def maxNumber : Nat := 0xFFFFFFFFFFFFFFFF

/-- The number of elements. -/
def size (document : Document) : Nat :=
  document.elements.length

/-- Whether there is no element. -/
def isEmpty (document : Document) : Bool :=
  document.elements.isEmpty

/-- The element at an index. -/
def get? (document : Document) (index : Nat) : Option Element :=
  document.elements[index]?

/-- The first element with an identity. -/
def find? (document : Document) (id : ElementId) : Option Element :=
  document.elements.find? (·.id == id)

/-- The content of the first `title` element. -/
def title? (document : Document) : Option String :=
  (document.elements.find? (·.kind.tagName? == some "title")).bind (·.content)

/-- The identity that the next element gets. -/
def nextId (document : Document) : Option String → ElementId
  | some id => .explicit id
  | none => .generated (max document.nextNumber 1)

/-- The counter after the next element. -/
def numberAfter (document : Document) : Option String → Nat
  | some _ => document.nextNumber
  | none => min (max document.nextNumber 1 + 1) maxNumber

/-- The element that a draft becomes when it is added to the document. -/
def realize (document : Document) (draft : Draft) : Element where
  id := document.nextId draft.explicitId
  kind := draft.kind
  content := draft.content
  attributes := draft.attributes
  textOverride := draft.textOverride
  chain := draft.chain

/-- The document with one more element at its end. -/
def add (document : Document) (draft : Draft) : Document :=
  { document with
    elements := document.elements ++ [document.realize draft]
    nextNumber := document.numberAfter draft.explicitId }

/-- The document with more content on the element at an index, if there is one. -/
def append (document : Document) (index : Nat) (fragment : String) (separated : Bool) :
    Document :=
  { document with elements := document.elements.modify index (·.append fragment separated) }

/-- The list with its first member that satisfies `p` changed by `f`. -/
def updateFirst {α : Type _} (p : α → Bool) (f : α → α) : List α → List α
  | [] => []
  | a :: rest => if p a then f a :: rest else a :: updateFirst p f rest

/-- The document with the first element of an identity changed. -/
def update (document : Document) (id : ElementId) (f : Element → Element) : Document :=
  { document with elements := updateFirst (·.id == id) f document.elements }

/-- The notices that a text set on an element sends. -/
def noticesOf (element : Element) (text : String) : List Notice :=
  (element.handle.map fun handle => ⟨handle, text⟩).toList

/-- Sets the text of the first element with an identity, and notes it for the
element's listener.  Without such an element nothing happens. -/
def setText (document : Document) (id : ElementId) (text : String) : Document :=
  match document.find? id with
  | none => document
  | some element =>
      { document.update id ({ · with textOverride := some text }) with
        notices := document.notices ++ noticesOf element text }

/-- Sets the click handler of the first element with an identity. -/
def setHandler (document : Document) (id : ElementId) (handler : String) : Document :=
  document.update id ({ · with clickOverride := some handler })

/-- Binds a listener to the first element with an identity.  An element keeps the
first listener it gets; there is no answer if it has one, or if there is no such
element. -/
def bind? (document : Document) (id : ElementId) (handle : Handle) : Option Document :=
  match document.find? id with
  | none => none
  | some element =>
      match element.handle with
      | some _ => none
      | none => some (document.update id ({ · with handle := some handle }))

@[simp]
theorem size_add (document : Document) (draft : Draft) :
    (document.add draft).size = document.size + 1 := by
  simp [size, add]

@[simp]
theorem length_updateFirst {α : Type _} (p : α → Bool) (f : α → α) (list : List α) :
    (updateFirst p f list).length = list.length := by
  induction list with
  | nil => rfl
  | cons a rest ih => by_cases here : p a <;> simp [updateFirst, here, ih]

/-- An element that was added stands at the end, and every other where it stood. -/
theorem get?_add (document : Document) (draft : Draft) (index : Nat) :
    (document.add draft).get? index =
      if index = document.size then some (document.realize draft)
      else document.get? index := by
  have grown : (document.add draft).elements =
      document.elements ++ [document.realize draft] := rfl
  have length_eq : document.elements.length = document.size := rfl
  rw [get?, grown]
  split
  · next here => simp [here, ← length_eq]
  · next elsewhere =>
    rcases Nat.lt_or_gt_of_ne elsewhere with below | above
    · exact List.getElem?_append_left below
    · rw [get?, List.getElem?_eq_none (by simp; omega), List.getElem?_eq_none (by omega)]

end Document
end Pagelet
