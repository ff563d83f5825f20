import Pagelet.Document

/-!
# Documents and their changes

Elements are added, content is put behind the content of an element, and the first
element with an identity is given a text or a click handler.  Whatever has become of a
document otherwise than by binding listeners is told by a list of such changes, and can
be had again by making them one after the other.
-/

namespace Pagelet
namespace Document

/-- A change of a document. -/
inductive Change
  /-- An element is added at the end. -/
  | add (draft : Draft)
  /-- Content is put behind that of the element at an index. -/
  | append (index : Nat) (fragment : String) (separated : Bool)
  /-- The first element with an identity gets a text. -/
  | setText (id : ElementId) (text : String)
  /-- The first element with an identity gets a click handler. -/
  | setHandler (id : ElementId) (handler : String)
deriving DecidableEq, Repr

/-- The element that a change adds. -/
def Change.draft? : Change → Option Draft
  | add draft => some draft
  | append .. | setText .. | setHandler .. => none

/-- The document after a change. -/
def apply (document : Document) : Change → Document
  | .add draft => document.add draft
  | .append index fragment separated => document.append index fragment separated
  | .setText id text => document.setText id text
  | .setHandler id handler => document.setHandler id handler

/-- The document after several changes. -/
def replay (document : Document) (changes : List Change) : Document :=
  changes.foldl apply document

@[simp]
theorem replay_nil (document : Document) : document.replay [] = document := rfl

@[simp]
theorem replay_cons (document : Document) (change : Change) (rest : List Change) :
    document.replay (change :: rest) = (document.apply change).replay rest := rfl

/-- Changes may be replayed in two goes. -/
theorem replay_append (document : Document) (first second : List Change) :
    document.replay (first ++ second) = (document.replay first).replay second :=
  List.foldl_append

/-- The index of the first element with an identity. -/
def indexOf? (document : Document) (id : ElementId) : Option Nat :=
  document.elements.findIdx? (·.id == id)

theorem find?_eq_bind_indexOf? (document : Document) (id : ElementId) :
    document.find? id = (document.indexOf? id).bind document.get? :=
  List.find?_eq_bind_findIdx?_getElem?

theorem indexOf?_eq_none_iff (document : Document) (id : ElementId) :
    document.indexOf? id = none ↔ document.find? id = none := by
  simp [indexOf?, find?]

/-- The first element with an identity has it, and no earlier one does. -/
theorem indexOf?_eq_some_iff {document : Document} {id : ElementId} {index : Nat} :
    document.indexOf? id = some index ↔
      (∃ element, document.get? index = some element ∧ element.id = id) ∧
        ∀ earlier < index, ∀ element, document.get? earlier = some element →
          element.id ≠ id := by
  simp only [indexOf?, get?, List.findIdx?_eq_some_iff_getElem, List.getElem?_eq_some_iff]
  grind

/-- The member to which a change of the first that satisfies a test goes. -/
theorem getElem?_updateFirst {α : Type _} (p : α → Bool) (f : α → α) (list : List α)
    (index : Nat) :
    (updateFirst p f list)[index]? =
      if list.findIdx? p = some index then list[index]?.map f else list[index]? := by
  induction list generalizing index with
  | nil => simp [updateFirst]
  | cons head rest ih =>
      rw [updateFirst, List.findIdx?_cons]
      by_cases first : p head
      · cases index <;> simp [first]
      · cases index with
        | zero => simp [first]
        | succ index => simpa [first] using ih index

/-- Only the first element with the identity changes. -/
theorem get?_update (document : Document) (id : ElementId) (f : Element → Element)
    (index : Nat) :
    (document.update id f).get? index =
      if document.indexOf? id = some index then (document.get? index).map f
      else document.get? index :=
  getElem?_updateFirst ..

/-- Setting a text changes the first element with the identity, if there is one. -/
theorem get?_setText (document : Document) (id : ElementId) (text : String) (index : Nat) :
    (document.setText id text).get? index =
      if document.indexOf? id = some index then
        (document.get? index).map ({ · with textOverride := some text })
      else document.get? index := by
  unfold setText
  split
  · next absent => simp [(indexOf?_eq_none_iff document id).2 absent]
  · exact get?_update document id _ index

/-- The listener of the element at an index. -/
def listenerAt (document : Document) (index : Nat) : Option Handle :=
  (document.get? index).bind (·.handle)

/-- The index of the element to which a listener is bound: the first element with the
identity, unless it has one already. -/
def freeIndex? (document : Document) (id : ElementId) : Option Nat :=
  (document.indexOf? id).filter fun index => (document.listenerAt index).isNone

/-- A place is free for an id if it is the id's first and nobody listens there. -/
theorem freeIndex?_eq_some_iff {document : Document} {id : ElementId} {index : Nat} :
    document.freeIndex? id = some index ↔
      document.indexOf? id = some index ∧ document.listenerAt index = none := by
  simp [freeIndex?, Option.filter_eq_some_iff]

theorem bind?_eq (document : Document) (id : ElementId) (handle : Handle) :
    document.bind? id handle =
      (document.freeIndex? id).map fun _ =>
        document.update id ({ · with handle := some handle }) := by
  rw [bind?, find?_eq_bind_indexOf?, freeIndex?]
  cases here : document.indexOf? id with
  | none => rfl
  | some index =>
      obtain ⟨⟨element, found, -⟩, -⟩ := indexOf?_eq_some_iff.1 here
      cases own : element.handle <;> simp [found, listenerAt, own, Option.filter_some]

/-- A handle is bound exactly where a place is free, and the document changes in nothing else. -/
theorem bind?_eq_some_iff {document after : Document} {id : ElementId} {handle : Handle} :
    document.bind? id handle = some after ↔
      (∃ index, document.freeIndex? id = some index) ∧
        after = document.update id ({ · with handle := some handle }) := by
  rw [bind?_eq]
  cases document.freeIndex? id <;> simp [eq_comm]

theorem exists_bind? {document : Document} {id : ElementId} {index : Nat}
    (free : document.freeIndex? id = some index) (handle : Handle) :
    ∃ after, document.bind? id handle = some after :=
  ⟨_, bind?_eq_some_iff.2 ⟨⟨index, free⟩, rfl⟩⟩

section Kept

variable {α β : Type _} {f : α → α} {g : α → β}

/-- A map that the change of an element keeps does not see the change. -/
theorem map_updateFirst (keeps : ∀ a, g (f a) = g a) (p : α → Bool) (list : List α) :
    (updateFirst p f list).map g = list.map g := by
  induction list with
  | nil => rfl
  | cons head rest ih =>
      rw [updateFirst]
      split <;> simp [keeps, ih]

theorem map_modify (keeps : ∀ a, g (f a) = g a) (list : List α) (index : Nat) :
    (list.modify index f).map g = list.map g := by
  have same : g ∘ f = g := funext keeps
  apply List.ext_getElem?
  intro place
  simp only [List.getElem?_map, List.getElem?_modify]
  split <;> simp [same]

end Kept

/-- What does not depend on texts and click handlers stays the same on every element, and
an element that is added comes behind the others. -/
theorem map_elements_apply {β : Type _} {g : Element → β}
    (keeps : ∀ (element : Element) content textOverride clickOverride,
      g { element with content, textOverride, clickOverride } = g element)
    (document : Document) (change : Change) :
    (document.apply change).elements.map g =
      document.elements.map g ++ (change.draft?.map (g ∘ document.realize)).toList := by
  cases change with
  | add draft => simp [apply, add, Change.draft?]
  | append index fragment separated =>
      have same := map_modify (f := (·.append fragment separated))
        (fun element => keeps element _ element.textOverride element.clickOverride)
        document.elements index
      simp [apply, append, Change.draft?, same]
  | setText id text =>
      have same := map_updateFirst (f := ({ · with textOverride := some text }))
        (fun element => keeps element element.content _ element.clickOverride) (·.id == id)
        document.elements
      simp only [apply, setText, Change.draft?]
      split <;> simp [update, same]
  | setHandler id handler =>
      have same := map_updateFirst (f := ({ · with clickOverride := some handler }))
        (fun element => keeps element element.content element.textOverride _) (·.id == id)
        document.elements
      simp [apply, setHandler, update, Change.draft?, same]

end Document
end Pagelet
