import Pagelet.Proofs.Document.Changes

/-!
# Identities

An element gets its identity when it is added, and keeps it and its place.  Elements
without an id of their own are numbered in the order in which they stand, without a gap,
until the counter reaches the greatest number and stays there.
-/

namespace Pagelet
namespace Document

/-- The id of one's own. -/
def ElementId.explicit? : ElementId → Option String
  | explicit id => some id
  | generated _ => none

/-- The number given to an element without an id. -/
def ElementId.number? : ElementId → Option Nat
  | explicit _ => none
  | generated number => some number

theorem ElementId.beq_explicit (id : ElementId) (name : String) :
    (id == explicit name) = (id.explicit? == some name) := by
  rw [Bool.eq_iff_iff, beq_iff_eq, beq_iff_eq]
  cases id <;> simp [explicit?]

theorem ElementId.beq_generated (id : ElementId) (number : Nat) :
    (id == generated number) = (id.number? == some number) := by
  rw [Bool.eq_iff_iff, beq_iff_eq, beq_iff_eq]
  cases id <;> simp [number?]

/-- An identity is numbered or explicit, and never both. -/
theorem ElementId.isSome_number? (id : ElementId) : id.number?.isSome = id.explicit?.isNone := by
  cases id <;> rfl

/-- The draft without the texts, which may change later. -/
def Draft.bare (draft : Draft) : Draft :=
  { draft with content := none, textOverride := none }

/-- The draft that an element stems from, without the texts. -/
def Element.bare (element : Element) : Draft where
  kind := element.kind
  attributes := element.attributes
  chain := element.chain
  explicitId := element.id.explicit?

/-- The identity of an element, with all that its draft has settled. -/
def Element.core (element : Element) : ElementId × Draft :=
  (element.id, element.bare)

/-- The cores of the elements, in document order. -/
def cores (document : Document) : List (ElementId × Draft) :=
  document.elements.map (·.core)

/-- The numbers of the elements without an id of their own, in document order. -/
def numbers (document : Document) : List Nat :=
  document.elements.filterMap (·.id.number?)

/-- The numbers handed out are told by the cores of the elements. -/
theorem numbers_eq_filterMap (document : Document) :
    document.numbers = document.cores.filterMap (·.1.number?) := by
  rw [cores, List.filterMap_map]
  rfl

/-- The core of a new element is the identity it is given and its bare draft. -/
theorem core_realize (document : Document) (draft : Draft) :
    (document.realize draft).core = (document.nextId draft.explicitId, draft.bare) := by
  have own : (document.nextId draft.explicitId).explicit? = draft.explicitId := by
    cases draft.explicitId <;> rfl
  simp [Element.core, Element.bare, Draft.bare, realize, own]

/-- A change adds at most one core, at the end. -/
theorem cores_apply (document : Document) (change : Change) :
    (document.apply change).cores =
      document.cores ++ (change.draft?.map fun draft =>
        (document.nextId draft.explicitId, draft.bare)).toList := by
  have added : Element.core ∘ document.realize =
      fun draft => (document.nextId draft.explicitId, draft.bare) :=
    funext (core_realize document)
  rw [← added]
  exact map_elements_apply (fun _ _ _ _ => rfl) document change

/-- A change moves the counter on if it adds an element, and leaves it otherwise. -/
theorem nextNumber_apply (document : Document) (change : Change) :
    (document.apply change).nextNumber =
      (change.draft?.map (document.numberAfter ·.explicitId)).getD document.nextNumber := by
  cases change with
  | add draft => rfl
  | append index fragment separated => rfl
  | setText id text =>
      simp only [apply, setText]
      split <;> rfl
  | setHandler id handler => rfl

/-- Changes only add to the cores at the end. -/
theorem cores_isPrefix_replay (document : Document) (changes : List Change) :
    document.cores <+: (document.replay changes).cores := by
  induction changes generalizing document with
  | nil => exact List.prefix_rfl
  | cons change rest ih =>
      refine List.IsPrefix.trans ?_ (ih (document.apply change))
      rw [cores_apply]
      exact List.prefix_append ..

theorem cores_bind? {document after : Document} {id : ElementId} {handle : Handle}
    (bound : document.bind? id handle = some after) : after.cores = document.cores := by
  have keeps (element : Element) : { element with handle := some handle }.core = element.core := rfl
  obtain ⟨-, rfl⟩ := bind?_eq_some_iff.1 bound
  exact map_updateFirst keeps _ document.elements

theorem nextNumber_bind? {document after : Document} {id : ElementId} {handle : Handle}
    (bound : document.bind? id handle = some after) :
    after.nextNumber = document.nextNumber := by
  obtain ⟨-, rfl⟩ := bind?_eq_some_iff.1 bound
  rfl

/-- The elements stem from the drafts.  Those without an id of their own are numbered
from one on, and the counter is one ahead of them, as far as numbers go. -/
structure Numbered (drafts : List Draft) (document : Document) : Prop where
  /-- Every element stems from its draft. -/
  bare_eq : document.cores.map (·.2) = drafts.map (·.bare)
  /-- The numbers go up by one, and stay at the greatest when they reach it. -/
  numbers_eq : document.numbers =
    (List.range document.numbers.length).map fun place => min (place + 1) maxNumber
  /-- So does the counter; at the beginning it may stand at zero. -/
  nextNumber_eq : max document.nextNumber 1 = min (document.numbers.length + 1) maxNumber

/-- A change adds the number of the element it adds, if that is numbered. -/
theorem numbers_apply (document : Document) (change : Change) :
    (document.apply change).numbers =
      document.numbers ++
        (change.draft?.bind fun draft => (document.nextId draft.explicitId).number?).toList := by
  rw [numbers_eq_filterMap, cores_apply, List.filterMap_append, ← numbers_eq_filterMap]
  cases change.draft? with
  | none => rfl
  | some draft => cases own : (document.nextId draft.explicitId).number? <;> simp [own]

namespace Numbered

variable {drafts : List Draft} {document : Document}

theorem nil (isNew : document = fresh ∨ document = unnumbered) : Numbered [] document := by
  obtain rfl | rfl := isNew <;> exact ⟨rfl, rfl, by decide⟩

/-- What leaves cores and counter alone leaves the numbering alone. -/
theorem congr {after : Document} (numbered : Numbered drafts document)
    (sameCores : after.cores = document.cores)
    (sameCounter : after.nextNumber = document.nextNumber) : Numbered drafts after := by
  have sameNumbers : after.numbers = document.numbers := by
    rw [numbers_eq_filterMap, numbers_eq_filterMap, sameCores]
  constructor
  · rw [sameCores, numbered.bare_eq]
  · rw [sameNumbers, ← numbered.numbers_eq]
  · rw [sameNumbers, sameCounter, numbered.nextNumber_eq]

/-- Every change keeps the numbering, with the draft it adds behind the others. -/
theorem apply (numbered : Numbered drafts document) (change : Change) :
    Numbered (drafts ++ change.draft?.toList) (document.apply change) := by
  have cores := cores_apply document change
  have numbers := numbers_apply document change
  have counter := nextNumber_apply document change
  cases added : change.draft? with
  | none =>
      rw [added] at cores counter
      simpa using numbered.congr (by simpa using cores) counter
  | some draft =>
      rw [added] at cores numbers counter
      have bare_eq :
          (document.apply change).cores.map (·.2) = (drafts ++ [draft]).map (·.bare) := by
        rw [cores, List.map_append, List.map_append, numbered.bare_eq]
        rfl
      have before := numbered.numbers_eq
      have ahead := numbered.nextNumber_eq
      cases own : draft.explicitId with
      | some name =>
          have same : (document.apply change).numbers = document.numbers := by
            simpa [own, nextId, ElementId.number?] using numbers
          refine ⟨bare_eq, by rw [same, ← before], ?_⟩
          simpa [same, counter, numberAfter, own] using ahead
      | none =>
          have longer : (document.apply change).numbers =
              document.numbers ++ [min (document.numbers.length + 1) maxNumber] := by
            simpa [own, nextId, ElementId.number?, ahead] using numbers
          refine ⟨bare_eq, ?_, ?_⟩
          · rw [longer, List.length_append, List.length_singleton, List.range_succ,
              List.map_append, ← before]
            rfl
          · rw [longer, List.length_append, List.length_singleton, counter, Option.map_some,
              Option.getD_some, own, numberAfter, ahead, maxNumber]
            omega

theorem replay (numbered : Numbered drafts document) (changes : List Change) :
    Numbered (drafts ++ changes.filterMap (·.draft?)) (document.replay changes) := by
  induction changes generalizing drafts document with
  | nil => simpa using numbered
  | cons change rest ih =>
      have drafted : drafts ++ (change :: rest).filterMap (·.draft?) =
          drafts ++ change.draft?.toList ++ rest.filterMap (·.draft?) := by
        cases draft? : change.draft? <;> simp [draft?]
      rw [drafted]
      exact ih (numbered.apply change)

end Numbered

/-- If numbers go up by one along a list, the member with a number stands at that place
among those that have one. -/
theorem find?_eq_getElem?_filter {α : Type _} {number? : α → Option Nat} {list : List α}
    {first count : Nat} (counted : list.filterMap number? = List.range' first count)
    (place : Nat) :
    list.find? (number? · == some (first + place)) =
      (list.filter fun a => (number? a).isSome)[place]? := by
  induction list generalizing first count place with
  | nil => simp
  | cons a rest ih =>
      cases here : number? a with
      | none =>
          rw [List.filterMap_cons_none here] at counted
          simpa [here] using ih counted place
      | some number =>
          rw [List.filterMap_cons_some here] at counted
          cases count with
          | zero => simp at counted
          | succ count =>
              rw [List.range'_succ, List.cons.injEq] at counted
              obtain ⟨rfl, behind⟩ := counted
              cases place with
              | zero => simp [here]
              | succ place =>
                  have later := ih behind place
                  rw [Nat.add_right_comm, Nat.add_assoc] at later
                  simpa [here] using later

/-- The elements without an id of their own, in document order. -/
def unnamed (document : Document) : List Element :=
  document.elements.filter (·.id.number?.isSome)

/-- The elements stem from the drafts and can be told apart by number, and by name if
they are the first of their name. -/
structure Identified (drafts : List Draft) (document : Document) : Prop where
  /-- Every element stems from its draft. -/
  bare_eq : document.elements.map (·.bare) = drafts.map (·.bare)
  /-- Those without an id of their own are numbered from one on without a gap. -/
  numbers_eq : document.numbers = List.range' 1 (drafts.countP (·.explicitId.isNone))
  /-- No element has the number zero. -/
  find?_zero : document.find? (.generated 0) = none
  /-- Every other number is that of an element at its place, or of none. -/
  find?_succ : ∀ place, document.find? (.generated (place + 1)) = document.unnamed[place]?
  /-- An id is that of the first element that was added with it. -/
  find?_explicit : ∀ name, document.find? (.explicit name) =
    (drafts.findIdx? (·.explicitId == some name)).bind document.get?

namespace Numbered

variable {drafts : List Draft} {document : Document}

/-- The elements are the drafts in the order in which they were added. -/
theorem bare_elements (numbered : Numbered drafts document) :
    document.elements.map (·.bare) = drafts.map (·.bare) := by
  rw [← numbered.bare_eq, cores, List.map_map]
  rfl

/-- As many numbers are handed out as there are drafts without an id. -/
theorem length_numbers (numbered : Numbered drafts document) :
    document.numbers.length = drafts.countP (·.explicitId.isNone) := by
  rw [numbers, List.length_filterMap_eq_countP]
  calc document.elements.countP (·.id.number?.isSome)
      = (document.elements.map (·.bare)).countP (·.explicitId.isNone) := by
        rw [List.countP_map]
        simp only [ElementId.isSome_number?]
        rfl
    _ = (drafts.map (·.bare)).countP (·.explicitId.isNone) := by rw [numbered.bare_elements]
    _ = drafts.countP (·.explicitId.isNone) := by
        rw [List.countP_map]
        rfl

/-- An explicit id is found at the first draft that has it. -/
theorem indexOf?_explicit (numbered : Numbered drafts document) (name : String) :
    document.indexOf? (.explicit name) = drafts.findIdx? (·.explicitId == some name) := by
  calc document.elements.findIdx? (·.id == .explicit name)
      = (document.elements.map (·.bare)).findIdx? (·.explicitId == some name) := by
        rw [List.findIdx?_map]
        simp only [ElementId.beq_explicit]
        rfl
    _ = (drafts.map (·.bare)).findIdx? (·.explicitId == some name) := by
        rw [numbered.bare_elements]
    _ = drafts.findIdx? (·.explicitId == some name) := by
        rw [List.findIdx?_map]
        rfl

/-- As long as there are no more elements than numbers, none is left without one. -/
theorem identified (numbered : Numbered drafts document) (room : document.size ≤ maxNumber) :
    Identified drafts document := by
  have few : document.numbers.length ≤ maxNumber :=
    Nat.le_trans (List.length_filterMap_le ..) room
  have counted : document.numbers = List.range' 1 document.numbers.length := by
    rw [numbered.numbers_eq, List.length_map, List.length_range, List.range'_eq_map_range]
    apply List.map_congr_left
    intro place inside
    rw [List.mem_range] at inside
    omega
  have found (number : Nat) :
      document.find? (.generated number) =
        document.elements.find? (·.id.number? == some number) := by
    simp only [find?, ElementId.beq_generated]
  refine ⟨numbered.bare_elements, by rw [← numbered.length_numbers, ← counted], ?_, ?_, ?_⟩
  · rw [found, List.find?_eq_none]
    intro element member zero
    have inside : 0 ∈ document.numbers :=
      List.mem_filterMap.2 ⟨element, member, by simpa using zero⟩
    rw [counted] at inside
    simp at inside
  · intro place
    rw [found, Nat.add_comm]
    exact find?_eq_getElem?_filter counted place
  · intro name
    rw [find?_eq_bind_indexOf?, numbered.indexOf?_explicit]

end Numbered

end Document
end Pagelet
