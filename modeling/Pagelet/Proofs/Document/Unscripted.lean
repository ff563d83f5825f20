import Pagelet.Proofs.Run.Frame

/-!
# Elements without what scripts did

Scripts write text elements and set texts and click handlers on others.  Without all that, and
without the numbers of elements that have no id, a document is the list of the elements of
its markup.  A script leaves this list alone, and an index into the document stands for the
place of an element in it, which a script leaves alone too.
-/

namespace Pagelet
namespace Document

open Style (StyleRef)

/-- The identity without the number of an element that has no id of its own. -/
def ElementId.unnumbered : ElementId → ElementId
  | explicit id => explicit id
  | generated _ => generated 0

/-- The element without its number. -/
def Element.unnumbered (element : Element) : Element :=
  { element with id := element.id.unnumbered }

/-- The element without its number and without what a script may have set on it. -/
def Element.unscripted (element : Element) : Element :=
  { element.unnumbered with textOverride := none, clickOverride := none }

/-- The element as the markup has it, unless a script wrote it. -/
def Element.markup? (element : Element) : Option Element :=
  if element.kind = .text then none else some element.unscripted

/-- Markup that is the same in all that scripts leave is the same markup. -/
theorem Element.SameMarkup.markup?_eq {before after : Element} (same : before.SameMarkup after) :
    after.markup? = before.markup? := by
  obtain ⟨idEq, kindEq, contentEq, attributesEq, chainEq, handleEq⟩ := same
  simp only [markup?, unscripted, unnumbered, idEq, kindEq, contentEq, attributesEq, chainEq,
    handleEq]

theorem Element.markup?_append (element : Element) (fragment : String) (separated : Bool) :
    (element.append fragment separated).markup? =
      element.markup?.map (·.append fragment separated) := by
  have kindEq : (element.append fragment separated).kind = element.kind := rfl
  rw [markup?, markup?, kindEq]
  split <;> rfl

/-- The elements of the markup, in order. -/
def markup (document : Document) : List Element :=
  document.elements.filterMap Element.markup?

/-- The markup of a document is that of its elements that no script added. -/
theorem markup_eq_map_filter (document : Document) :
    document.markup = (document.elements.filter (·.kind ≠ .text)).map Element.unscripted := by
  unfold markup
  induction document.elements with
  | nil => rfl
  | cons element rest ih =>
      by_cases written : element.kind = .text <;> simp [Element.markup?, written, ih]

/-- How many elements of the markup stand before the index. -/
def place (document : Document) (index : Nat) : Nat :=
  ((document.elements.take index).filterMap Element.markup?).length

/-- The element at the index is one of the markup. -/
def Anchors (document : Document) (index : Nat) : Prop :=
  ∃ element, document.get? index = some element ∧ element.kind ≠ .text

variable {document : Document} {index : Nat} {draft : Draft}

theorem Anchors.lt_size (anchors : document.Anchors index) : index < document.size := by
  obtain ⟨element, found, -⟩ := anchors
  exact lt_size_of_get? found

/-- The markup of a new element does not depend on the document. -/
theorem markup?_realize (document other : Document) (draft : Draft) :
    (document.realize draft).markup? = (other.realize draft).markup? := by
  have same : (document.realize draft).id.unnumbered = (other.realize draft).id.unnumbered := by
    unfold realize nextId
    cases draft.explicitId <;> rfl
  simp only [Element.markup?, Element.unscripted, Element.unnumbered, same]
  rfl

/-- An element that markup adds stands at the end of the markup. -/
theorem markup_add (document : Document) (draft : Draft) :
    (document.add draft).markup = document.markup ++ (fresh.realize draft).markup?.toList := by
  rw [markup, add, List.filterMap_append, markup?_realize fresh document draft]
  cases marked : (document.realize draft).markup? <;> simp [markup, marked]

/-- A new element moves no element that was there. -/
theorem place_add (inside : index ≤ document.size) (draft : Draft) :
    (document.add draft).place index = document.place index := by
  rw [place, add, List.take_append_of_le_length inside]
  rfl

/-- The next element of the markup stands behind the others. -/
theorem place_size (document : Document) :
    document.place document.size = document.markup.length := by
  rw [place, size, List.take_length]
  rfl

theorem Anchors.add (anchors : document.Anchors index) (draft : Draft) :
    (document.add draft).Anchors index := by
  obtain ⟨element, found, isMarkup⟩ := anchors
  refine ⟨element, ?_, isMarkup⟩
  rw [get?_add, if_neg (Nat.ne_of_lt (lt_size_of_get? found)), found]

theorem anchors_size_add (document : Document) (isMarkup : draft.kind ≠ .text) :
    (document.add draft).Anchors document.size :=
  ⟨document.realize draft, by rw [get?_add, if_pos rfl], isMarkup⟩

/-- A fragment changes the one element it is added to. -/
theorem append_eq (document : Document) (index : Nat) (fragment : String) (separated : Bool) :
    (document.append index fragment separated).elements =
      document.elements.modify index (·.append fragment separated) :=
  rfl

/-- Content goes to the element's place in the markup. -/
theorem markup_append (anchors : document.Anchors index) (fragment : String) (separated : Bool) :
    (document.append index fragment separated).markup =
      document.markup.modify (document.place index) (·.append fragment separated) := by
  obtain ⟨element, found, isMarkup⟩ := anchors
  obtain ⟨before, here, behind, whole, length_eq, changed⟩ :=
    List.exists_of_modify (·.append fragment separated) (lt_size_of_get? found)
  have same : here = element := by
    simpa [get?, whole, ← length_eq] using found
  have marked : here.markup? = some here.unscripted := if_neg (same ▸ isMarkup)
  have front : document.elements.take index = before := by
    rw [whole, ← length_eq, List.take_left]
  rw [markup, append_eq, changed, place, front, markup, whole]
  simp only [List.filterMap_append, List.filterMap_cons, Element.markup?_append, marked,
    Option.map_some]
  rw [List.modify_eq_take_cons_drop (by simp)]
  simp

theorem place_append (document : Document) (index other : Nat) (fragment : String)
    (separated : Bool) :
    (document.append other fragment separated).place index = document.place index := by
  have counted (list : List Element) :
      ((list.modify other (·.append fragment separated)).filterMap Element.markup?).length =
        (list.filterMap Element.markup?).length := by
    rcases Nat.lt_or_ge other list.length with inside | outside
    · obtain ⟨before, here, behind, whole, -, changed⟩ :=
        List.exists_of_modify (·.append fragment separated) inside
      rw [changed, whole]
      cases marked : here.markup? <;>
        simp [List.filterMap_append, Element.markup?_append, marked]
    · rw [List.modify_eq_self outside]
  rw [place, append_eq, List.take_modify, counted]
  rfl

theorem Anchors.append (anchors : document.Anchors index) (other : Nat) (fragment : String)
    (separated : Bool) : (document.append other fragment separated).Anchors index := by
  obtain ⟨element, found, isMarkup⟩ := anchors
  rw [get?] at found
  by_cases here : other = index
  · exact ⟨element.append fragment separated, by simp [get?, append_eq, here, found], isMarkup⟩
  · exact ⟨element, by simp [get?, append_eq, here, found], isMarkup⟩

namespace Framed

variable {before after : Document} {chain : List StyleRef} {β : Type _} {view : Element → Option β}

/-- What depends on the markup alone is the same for the elements that were there before. -/
theorem filterMap_take_eq (framed : Framed chain before after)
    (blind : ∀ {first second : Element}, first.SameMarkup second → view second = view first)
    (inside : index ≤ before.size) :
    (after.elements.take index).filterMap view = (before.elements.take index).filterMap view := by
  have viewed : (after.elements.take index).map view = (before.elements.take index).map view := by
    apply List.ext_getElem?
    intro place
    rw [List.getElem?_map, List.getElem?_map, List.getElem?_take, List.getElem?_take]
    split
    · next below =>
      obtain ⟨element, found⟩ := exists_get? (Nat.lt_of_lt_of_le below inside)
      obtain ⟨changed, there, same, -⟩ := framed.kept place element found
      rw [get?] at found there
      rw [found, there, Option.map_some, Option.map_some, blind same]
    · rfl
  have kept := congrArg (List.filterMap id) viewed
  rwa [List.filterMap_map, List.filterMap_map, Function.id_comp] at kept

/-- What depends on the markup alone and is nothing for text that scripts write is the same
for the whole document. -/
theorem filterMap_eq (framed : Framed chain before after)
    (blind : ∀ {first second : Element}, first.SameMarkup second → view second = view first)
    (unseen : ∀ element : Element, element.IsWritten chain → view element = none) :
    after.elements.filterMap view = before.elements.filterMap view := by
  have added : (after.elements.drop before.size).filterMap view = [] := by
    rw [List.filterMap_eq_nil_iff]
    intro element member
    obtain ⟨offset, found⟩ := List.mem_iff_getElem?.1 member
    rw [List.getElem?_drop] at found
    exact unseen element (framed.added _ element (Nat.le_add_right _ _) found)
  have kept := framed.filterMap_take_eq blind (Nat.le_refl before.size)
  rw [size, List.take_length] at kept
  rw [← List.take_append_drop before.size after.elements, List.filterMap_append, added, size, kept,
    List.append_nil]

/-- Within its frame a script leaves the markup as it was. -/
theorem markup_eq (framed : Framed chain before after) : after.markup = before.markup :=
  framed.filterMap_eq Element.SameMarkup.markup?_eq fun _ written => if_pos written.kind_eq

theorem place_eq (framed : Framed chain before after) (inside : index ≤ before.size) :
    after.place index = before.place index := by
  rw [place, place, framed.filterMap_take_eq Element.SameMarkup.markup?_eq inside]

/-- Within its frame a script leaves every anchor in place. -/
theorem anchors (framed : Framed chain before after) (anchors : before.Anchors index) :
    after.Anchors index := by
  obtain ⟨element, found, isMarkup⟩ := anchors
  obtain ⟨changed, there, same, -⟩ := framed.kept index element found
  exact ⟨changed, there, same.kind_eq ▸ isMarkup⟩

end Framed

end Document
end Pagelet
