import Pagelet.Document

/-!
# Adding several elements

Elements that are added one after the other stand at the end of the document in order.
Those without an id of their own are numbered on from the document's counter, as long as
the numbers do not run out.  Content may go to an element before or after others are
added behind it.
-/

namespace Pagelet
namespace Document

variable {document : Document}

/-- The document with several more elements at its end. -/
def addAll (document : Document) (drafts : List Draft) : Document :=
  drafts.foldl add document

theorem size_addAll (drafts : List Draft) :
    (document.addAll drafts).size = document.size + drafts.length := by
  induction drafts generalizing document with
  | nil => rfl
  | cons draft rest ih =>
      have grown : ((document.add draft).addAll rest).size =
          (document.add draft).size + rest.length := ih
      rw [size_add] at grown
      rw [addAll, List.foldl_cons, List.length_cons]
      exact grown.trans (by omega)

/-- The element with this identity. -/
def Draft.identified (draft : Draft) (id : ElementId) : Element where
  id
  kind := draft.kind
  content := draft.content
  attributes := draft.attributes
  textOverride := draft.textOverride
  chain := draft.chain

/-- The elements with their identities: those with no id of their own are numbered, this
number being the next. -/
def numbered (next : Nat) : List Draft → List Element
  | [] => []
  | draft :: rest =>
      match draft.explicitId with
      | some id => draft.identified (.explicit id) :: numbered next rest
      | none => draft.identified (.generated next) :: numbered (next + 1) rest

/-- The counter goes on by one at most. -/
theorem nextNumber_add (positive : 1 ≤ document.nextNumber)
    (room : document.nextNumber < maxNumber) (draft : Draft) :
    (document.add draft).nextNumber =
      document.nextNumber + if draft.explicitId.isSome then 0 else 1 := by
  have counted : min (max document.nextNumber 1 + 1) maxNumber =
      document.nextNumber + 1 := by
    rw [Nat.max_eq_left positive, Nat.min_eq_left room]
  cases own : draft.explicitId with
  | none => simp [add, numberAfter, own, counted]
  | some id => simp [add, numberAfter, own]

/-- The first of several elements gets the identity that the document has for it. -/
theorem numbered_cons (positive : 1 ≤ document.nextNumber)
    (room : document.nextNumber < maxNumber) (draft : Draft) (rest : List Draft) :
    numbered document.nextNumber (draft :: rest) =
      document.realize draft :: numbered (document.add draft).nextNumber rest := by
  rw [nextNumber_add positive room, numbered, realize]
  cases draft.explicitId with
  | none =>
      rw [nextId, Nat.max_eq_left positive]
      rfl
  | some id => rfl

/-- Elements that are added to a document whose numbers do not run out are numbered on. -/
theorem elements_addAll {drafts : List Draft} (positive : 1 ≤ document.nextNumber)
    (room : document.nextNumber + drafts.length ≤ maxNumber) :
    (document.addAll drafts).elements =
      document.elements ++ numbered document.nextNumber drafts := by
  induction drafts generalizing document with
  | nil => simp [addAll, numbered]
  | cons draft rest ih =>
      rw [List.length_cons] at room
      have inside : document.nextNumber < maxNumber := by omega
      have next := nextNumber_add positive inside draft
      have behind : ((document.add draft).addAll rest).elements =
          (document.add draft).elements ++
            numbered (document.add draft).nextNumber rest := by
        apply ih <;> rw [next] <;> split <;> omega
      rw [numbered_cons positive inside, List.append_cons]
      exact behind

/-- Content for an element that is there may come before or after a new element. -/
theorem append_add {index : Nat} (below : index < document.size) (draft : Draft)
    (fragment : String) (separated : Bool) :
    (document.add draft).append index fragment separated =
      (document.append index fragment separated).add draft := by
  have apart : (document.elements ++ [document.realize draft]).modify index
      (·.append fragment separated) =
        document.elements.modify index (·.append fragment separated) ++
          [document.realize draft] := by
    apply List.ext_getElem?
    intro place
    rw [size] at below
    grind
  simp only [append, add, apart]
  rfl

/-- A fragment for an element that was there does not touch the elements added behind it. -/
theorem append_addAll {index : Nat} (below : index < document.size) (drafts : List Draft)
    (fragment : String) (separated : Bool) :
    (document.addAll drafts).append index fragment separated =
      (document.append index fragment separated).addAll drafts := by
  induction drafts generalizing document with
  | nil => rfl
  | cons draft rest ih =>
      have inside : index < (document.add draft).size := by
        rw [size_add]
        omega
      rw [addAll, addAll, List.foldl_cons, List.foldl_cons, ← append_add below]
      exact ih inside

/-- Content for the element that was added last is content of its draft. -/
theorem append_size_add (draft : Draft) (fragment : String) (separated : Bool) :
    (document.add draft).append document.size fragment separated =
      document.add { draft with
        content := ((document.realize draft).append fragment separated).content } := by
  have last : (document.elements ++ [document.realize draft]).modify document.elements.length
      (·.append fragment separated) =
        document.elements ++ [(document.realize draft).append fragment separated] :=
    List.modifyTailIdx_add _ 0 document.elements _
  simp only [append, add, size, last]
  rfl

end Document
end Pagelet
