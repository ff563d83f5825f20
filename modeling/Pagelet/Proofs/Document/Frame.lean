import Pagelet.Proofs.Document.Changes

/-!
# What a script leaves as it was

A script adds text at the end of a document and sets texts and click handlers on
elements that are named by their ids.  Everything else about a document stays, and the
relation that says so is transitive, so it carries over from one change to a whole run.
-/

namespace Pagelet
namespace Document

open Style (StyleRef)

/-- The two elements differ at most in the text and the handler that a script sets. -/
structure Element.SameMarkup (before after : Element) : Prop where
  /-- The identity is the same. -/
  id_eq : after.id = before.id
  /-- The element stands for the same. -/
  kind_eq : after.kind = before.kind
  /-- The text of the markup is the same. -/
  content_eq : after.content = before.content
  /-- The attributes are the same. -/
  attributes_eq : after.attributes = before.attributes
  /-- The style references are the same. -/
  chain_eq : after.chain = before.chain
  /-- The listener is the same. -/
  handle_eq : after.handle = before.handle

theorem Element.SameMarkup.refl (element : Element) : element.SameMarkup element :=
  ⟨rfl, rfl, rfl, rfl, rfl, rfl⟩

theorem Element.SameMarkup.trans {first second third : Element}
    (left : first.SameMarkup second) (right : second.SameMarkup third) :
    first.SameMarkup third where
  id_eq := right.id_eq.trans left.id_eq
  kind_eq := right.kind_eq.trans left.kind_eq
  content_eq := right.content_eq.trans left.content_eq
  attributes_eq := right.attributes_eq.trans left.attributes_eq
  chain_eq := right.chain_eq.trans left.chain_eq
  handle_eq := right.handle_eq.trans left.handle_eq

/-- The element is text that a script wrote within a chain of styles, and nothing has
been set on it since. -/
structure Element.IsWritten (chain : List StyleRef) (element : Element) : Prop where
  /-- The element is text. -/
  kind_eq : element.kind = .text
  /-- The identity is a number. -/
  isGenerated : ∃ number, element.id = .generated number
  /-- There is some text. -/
  hasContent : ∃ content, element.content = some content
  /-- There are no attributes. -/
  attributes_eq : element.attributes = []
  /-- No text was set. -/
  textOverride_eq : element.textOverride = none
  /-- No click handler was set. -/
  clickOverride_eq : element.clickOverride = none
  /-- The style references are those of the script. -/
  chain_eq : element.chain = chain
  /-- There is no listener. -/
  handle_eq : element.handle = none

/-- The element at the index has an id of its own, and it is the first with that id. -/
def IsFirstNamed (document : Document) (index : Nat) : Prop :=
  ∃ id, (∃ element, document.get? index = some element ∧ element.id = .explicit id) ∧
    ∀ earlier < index, ∀ element, document.get? earlier = some element →
      element.id ≠ .explicit id

/-- The second document is the first after changes that a script in the chain may make. -/
structure Framed (chain : List StyleRef) (before after : Document) : Prop where
  /-- Every element stays where it is.  Only a text or a handler may have been set on it,
  and only if it is the first with its own id. -/
  kept : ∀ index element, before.get? index = some element →
    ∃ changed, after.get? index = some changed ∧ element.SameMarkup changed ∧
      (changed ≠ element → before.IsFirstNamed index)
  /-- Every other element is text that the script wrote. -/
  added : ∀ index element, before.size ≤ index → after.get? index = some element →
    element.IsWritten chain

variable {chain : List StyleRef} {document : Document}

/-- An element that is found stands inside the document. -/
theorem lt_size_of_get? {index : Nat} {element : Element}
    (found : document.get? index = some element) : index < document.size :=
  (List.getElem?_eq_some_iff.1 found).1

/-- Every place inside the document holds an element. -/
theorem exists_get? {index : Nat} (inside : index < document.size) :
    ∃ element, document.get? index = some element :=
  ⟨_, List.getElem?_eq_getElem inside⟩

namespace Framed

theorem refl (chain : List StyleRef) (document : Document) : Framed chain document document where
  kept _ element found := ⟨element, found, .refl element, fun differs => absurd rfl differs⟩
  added _ _ outside found := absurd (lt_size_of_get? found) (Nat.not_lt.2 outside)

/-- An element that is the first with its id afterwards has been so before. -/
theorem isFirstNamed {before after : Document} (framed : Framed chain before after)
    {index : Nat} (inside : index < before.size) (isFirst : after.IsFirstNamed index) :
    before.IsFirstNamed index := by
  obtain ⟨id, ⟨changed, found, named⟩, earliest⟩ := isFirst
  obtain ⟨element, here⟩ := exists_get? inside
  refine ⟨id, ⟨element, here, ?_⟩, ?_⟩
  · obtain ⟨other, there, same, -⟩ := framed.kept index element here
    obtain rfl := Option.some.inj (there.symm.trans found)
    exact same.id_eq ▸ named
  · intro earlier smaller first there
    obtain ⟨other, kept, same, -⟩ := framed.kept earlier first there
    exact same.id_eq ▸ earliest earlier smaller other kept

/-- Frames are put together: what both leave as it is stays as it is. -/
theorem trans {first second third : Document} (left : Framed chain first second)
    (right : Framed chain second third) : Framed chain first third where
  kept index element found := by
    obtain ⟨between, foundBetween, sameBetween, isFirst⟩ := left.kept index element found
    obtain ⟨changed, foundChanged, same, isFirstLater⟩ := right.kept index between foundBetween
    refine ⟨changed, foundChanged, sameBetween.trans same, fun differs => ?_⟩
    by_cases unchanged : between = element
    · exact left.isFirstNamed (lt_size_of_get? found) (isFirstLater (unchanged ▸ differs))
    · exact isFirst unchanged
  added index element outside found := by
    by_cases inside : index < second.size
    · obtain ⟨between, foundBetween⟩ := exists_get? inside
      have written := left.added index between outside foundBetween
      obtain ⟨changed, foundChanged, -, isFirst⟩ := right.kept index between foundBetween
      obtain rfl := Option.some.inj (foundChanged.symm.trans found)
      -- written text has no id of its own, so nothing can be set on it
      by_cases unchanged : changed = between
      · exact unchanged ▸ written
      · obtain ⟨id, ⟨named, foundNamed, explicit⟩, -⟩ := isFirst unchanged
        obtain rfl := Option.some.inj (foundBetween.symm.trans foundNamed)
        obtain ⟨number, generated⟩ := written.isGenerated
        simp [generated] at explicit
    · exact right.added index element (Nat.not_lt.1 inside) found

/-- Writing text adds an element at the end. -/
theorem write (chain : List StyleRef) (document : Document) (content : String) :
    Framed chain document (document.add { kind := .text, content := some content, chain }) where
  kept index element found := by
    refine ⟨element, ?_, .refl element, fun differs => absurd rfl differs⟩
    rw [get?_add, if_neg (Nat.ne_of_lt (lt_size_of_get? found)), found]
  added index element outside found := by
    rw [get?_add] at found
    split at found
    · obtain rfl := Option.some.inj found
      exact ⟨rfl, ⟨_, rfl⟩, ⟨content, rfl⟩, rfl, rfl, rfl, rfl, rfl⟩
    · exact absurd (lt_size_of_get? found) (Nat.not_lt.2 outside)

/-- Changing what scripts may set on the first element with an id keeps the frame. -/
theorem update (chain : List StyleRef) (document : Document) (id : String)
    {f : Element → Element} (keeps : ∀ element : Element, element.SameMarkup (f element)) :
    Framed chain document (document.update (.explicit id) f) where
  kept index element found := by
    by_cases first : document.indexOf? (.explicit id) = some index
    · refine ⟨f element, by rw [get?_update, if_pos first, found, Option.map_some],
        keeps element, fun _ => ?_⟩
      exact ⟨id, indexOf?_eq_some_iff.1 first⟩
    · exact ⟨element, by rw [get?_update, if_neg first, found], .refl element,
        fun differs => absurd rfl differs⟩
  added index element outside found := by
    have inside := lt_size_of_get? found
    rw [size, Document.update, length_updateFirst] at inside
    exact absurd inside (Nat.not_lt.2 outside)

theorem setHandler (chain : List StyleRef) (document : Document) (id handler : String) :
    Framed chain document (document.setHandler (.explicit id) handler) :=
  update chain document id fun _ => ⟨rfl, rfl, rfl, rfl, rfl, rfl⟩

theorem setText (chain : List StyleRef) (document : Document) (id text : String) :
    Framed chain document (document.setText (.explicit id) text) := by
  unfold Document.setText
  split
  · exact refl chain document
  · have framed := update chain document id (f := ({ · with textOverride := some text }))
      fun _ => ⟨rfl, rfl, rfl, rfl, rfl, rfl⟩
    -- notices are no part of an element
    exact ⟨framed.kept, framed.added⟩

end Framed

end Document
end Pagelet
