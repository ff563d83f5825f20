import Pagelet.Proofs.Document.Unscripted
import Pagelet.Proofs.Document.Identities
import Pagelet.Proofs.Document.Listeners

/-!
# What elements show under their ids

Whoever looks at a document through the ids that elements have of their own sees the text of
the first element with each id.  Binding listeners changes nothing about that; a script changes
the texts it sets, and each listener is told of exactly those that are set on its element.
-/

namespace Pagelet
namespace Document

variable {document after : Document} {id : ElementId} {index : Nat}

/-- The ids that elements have of their own, each once, in the order in which they first come. -/
def ownIds (document : Document) : List String :=
  (document.elements.filterMap (·.id.explicit?)).eraseDups

/-- The text of the first element with an id of its own, empty if it has none. -/
def textOf (document : Document) (name : String) : String :=
  ((document.find? (.explicit name)).bind (·.text)).getD ""

/-- The identity of an element with its text. -/
def Element.caption (element : Element) : ElementId × Option String :=
  (element.id, element.text)

/-- The captions of the elements, in document order. -/
def captions (document : Document) : List (ElementId × Option String) :=
  document.elements.map (·.caption)

/-- The text of the element at an index. -/
def textAt (document : Document) (index : Nat) : Option String :=
  (document.get? index).bind (·.text)

/-- The explicit ids of a document, each at its first occurrence, are told by its captions. -/
theorem ownIds_eq (document : Document) :
    document.ownIds = (document.captions.filterMap (·.1.explicit?)).eraseDups := by
  rw [captions, List.filterMap_map]
  rfl

/-- The place of an id is that of the first caption with it. -/
theorem indexOf?_eq_findIdx? (document : Document) (id : ElementId) :
    document.indexOf? id = document.captions.findIdx? (·.1 == id) := by
  rw [captions, List.findIdx?_map]
  rfl

/-- The text at a place is that of the caption there. -/
theorem textAt_eq (document : Document) (index : Nat) :
    document.textAt index = (document.captions[index]?).bind (·.2) := by
  rw [captions, List.getElem?_map, textAt, get?]
  cases document.elements[index]? <;> rfl

theorem textOf_eq {name : String} (here : document.indexOf? (.explicit name) = some index) :
    document.textOf name = (document.textAt index).getD "" := by
  rw [textOf, find?_eq_bind_indexOf?, here, Option.bind_some, textAt]

/-- Binding a listener changes no caption. -/
theorem captions_bind? {handle : Handle} (bound : document.bind? id handle = some after) :
    after.captions = document.captions := by
  have keeps (element : Element) :
      { element with handle := some handle }.caption = element.caption := rfl
  obtain ⟨-, rfl⟩ := bind?_eq_some_iff.1 bound
  exact map_updateFirst keeps _ document.elements

/-- Binding a handle moves no id. -/
theorem indexOf?_bind? {handle : Handle} (bound : document.bind? id handle = some after)
    (other : ElementId) : after.indexOf? other = document.indexOf? other := by
  rw [indexOf?_eq_findIdx?, captions_bind? bound, ← indexOf?_eq_findIdx?]

/-- Binding a handle changes no text. -/
theorem textAt_bind? {handle : Handle} (bound : document.bind? id handle = some after)
    (index : Nat) : after.textAt index = document.textAt index := by
  rw [textAt_eq, captions_bind? bound, ← textAt_eq]

/-- The first element with an identity stays the first. -/
theorem indexOf?_replay (here : document.indexOf? id = some index) (changes : List Change) :
    (document.replay changes).indexOf? id = some index := by
  have located (document : Document) :
      document.indexOf? id = document.cores.findIdx? (·.1 == id) := by
    rw [cores, List.findIdx?_map]
    rfl
  obtain ⟨added, grown⟩ := cores_isPrefix_replay document changes
  rw [located, ← grown, List.findIdx?_append, ← located, here, Option.some_or]

section Scripts

variable {chain : List Style.StyleRef}

/-- Scripts add no element with an id of its own. -/
theorem Framed.ownIds_eq (framed : Framed chain document after) :
    after.ownIds = document.ownIds := by
  have unnamed : ∀ element : Element, element.IsWritten chain → element.id.explicit? = none := by
    intro element written
    obtain ⟨number, generated⟩ := written.isGenerated
    rw [generated]
    rfl
  have same : after.elements.filterMap (·.id.explicit?) =
      document.elements.filterMap (·.id.explicit?) :=
    framed.filterMap_eq (fun same => by rw [same.id_eq]) unnamed
  rw [ownIds, same, ownIds]

/-- An element shows the text that was set on it last. -/
theorem textAt_replay {changes : List Change}
    (framed : Framed chain document (document.replay changes)) (inside : index < document.size) :
    (document.replay changes).textAt index =
      (textsOn index (document.eventsOf changes)).getLast?.or (document.textAt index) := by
  have overridden := overrideAt_replay document changes index
  obtain ⟨element, found⟩ := exists_get? inside
  obtain ⟨changed, there, same, -⟩ := framed.kept index element found
  rw [overrideAt, overrideAt, found, there, Option.bind_some, Option.bind_some] at overridden
  rw [textAt, textAt, found, there, Option.bind_some, Option.bind_some, Element.text, Element.text,
    overridden, same.content_eq, Option.or_assoc]

end Scripts

/-- The notice that an event sends: a text goes to the listener of its element. -/
def noticeOf? (document : Document) : Event → Option Notice
  | .textSet index text => (document.listenerAt index).map (⟨·, text⟩)
  | .bound .. | .dropped _ => none

/-- Two documents whose listeners agree give the same notice of an event. -/
theorem noticeOf?_congr
    (listeners : ∀ index, after.listenerAt index = document.listenerAt index) (event : Event) :
    after.noticeOf? event = document.noticeOf? event := by
  cases event with
  | textSet index text => rw [noticeOf?, noticeOf?, listeners]
  | bound | dropped => rfl

/-- Changes send the notices of their events. -/
theorem notices_replay (document : Document) (changes : List Change) :
    (document.replay changes).notices =
      document.notices ++ (document.eventsOf changes).filterMap document.noticeOf? := by
  induction changes generalizing document with
  | nil => simp [eventsOf]
  | cons change rest ih =>
      have later : (document.apply change).noticeOf? = document.noticeOf? :=
        funext (noticeOf?_congr (listenerAt_apply document change))
      rw [replay_cons, ih, notices_apply, later, eventsOf, List.filterMap_append,
        List.append_assoc]
      cases change.textSet? document with
      | none => rfl
      | some set => cases heard : document.listenerAt set.1 <;> simp [noticeOf?, heard]

/-- A listener of one element alone is told of the texts that are set on it. -/
theorem texts_filterMap_noticeOf? {handle : Handle}
    (own : ∀ other, document.listenerAt other = some handle ↔ other = index)
    (events : List Event) :
    ((events.filterMap document.noticeOf?).filter (·.handle == handle)).map (·.text) =
      textsOn index events := by
  induction events with
  | nil => rfl
  | cons event rest ih =>
      cases event with
      | bound | dropped => exact ih
      | textSet other text =>
          have here := own other
          have sent : document.noticeOf? (.textSet other text) =
              (document.listenerAt other).map (⟨·, text⟩) := rfl
          by_cases same : other = index
          · subst same
            simpa [List.filterMap_cons, sent, here.2 rfl, textsOn] using ih
          · cases listener : document.listenerAt other with
            | none => simpa [List.filterMap_cons, sent, listener, textsOn, same] using ih
            | some found =>
                have apart : found ≠ handle := fun equal => same (here.1 (equal ▸ listener))
                simpa [List.filterMap_cons, sent, listener, textsOn, same, apart] using ih

end Document
end Pagelet
