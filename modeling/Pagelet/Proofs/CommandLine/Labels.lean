import Pagelet.CommandLine
import Pagelet.Encoding
import Pagelet.Proofs.Page.Changes

/-!
# Labels in step with the page

A label is a copy of the text of an element, and learns of new text through a listener.  There
is one label for each id that elements have of their own; each shows at any time what the first
element with its id shows, and the lines that the program prints for a click can be read off the
page without any label.
-/

namespace Pagelet

open Document (Element ElementId Framed Handle Notice)

namespace Page

variable (page : Page)

/-- The line that shows the first element with an id of its own. -/
def captionLine (name : String) : String :=
  "#" ++ name ++ " = " ++ page.document.textOf name

/-- The ids whose first element is given a text by a click. -/
def idsSet (id : ElementId) : List String :=
  page.document.ownIds.filter fun name => !(page.textsSet id name).isEmpty

/-- The lines for a click: what came of it, and a line for each id whose element it gave a text,
with the text that the element shows after the click. -/
def clickLines (id : String) : List String :=
  ("-- click #" ++ id) ::
    match page.document.find? (.explicit id) with
    | none => ["(unknown element)"]
    | some element =>
        match element.clickHandler? with
        | none => ["(no handler)"]
        | some handler =>
            (page.runScript handler element.chain).2.lines ++
              (page.idsSet (.explicit id)).map (page.afterClick (.explicit id)).captionLine

/-- The lines for several clicks, one after the other. -/
def linesOfClicks : Page → List String → List String
  | _, [] => []
  | page, id :: rest =>
      page.clickLines id ++ (page.afterClick (.explicit id)).linesOfClicks rest

/-- A click that changes nothing sets no element's text. -/
theorem idsSet_of_clickChanges_eq_nil {id : ElementId} (still : page.clickChanges id = []) :
    page.idsSet id = [] := by
  have unset (name : String) : page.textsSet id name = [] := by
    rw [textsSet, still]
    split <;> rfl
  simp [idsSet, unset]

end Page

namespace CommandLine

namespace Label

variable {label : Label} {document : Document} {index : Nat}

/-- The label stands for the element at the index, alone. -/
structure Shows (label : Label) (document : Document) (index : Nat) : Prop where
  /-- The element is the first with the id of the label. -/
  first : document.indexOf? (.explicit label.id) = some index
  /-- The listener of the label is bound to this element and to no other. -/
  own : ∀ other, document.listenerAt other = some label.handle ↔ other = index
  /-- The text is that of the element. -/
  text_eq : label.text = (document.textAt index).getD ""

/-- Of several texts, the last one stays. -/
theorem foldl_setText (label : Label) (texts : List String) :
    texts.foldl setText label = (texts.getLast?.map label.setText).getD label := by
  induction texts generalizing label with
  | nil => rfl
  | cons text rest ih =>
      rw [List.foldl_cons, ih, List.getLast?_cons]
      cases rest.getLast? <;> rfl

namespace Shows

/-- A label shows the text of the first element with its id. -/
theorem textOf_eq (shown : label.Shows document index) :
    document.textOf label.id = label.text := by
  rw [Document.textOf_eq shown.first, shown.text_eq]

/-- The label hears of the texts that are set on its element. -/
theorem hear_eq (shown : label.Shows document index) (changes : List Document.Change) :
    label.hear ((document.replay changes).notices.drop document.notices.length) =
      ((Document.textsOn index (document.eventsOf changes)).getLast?.map label.setText).getD
        label := by
  rw [hear, Document.notices_replay, List.drop_left,
    Document.texts_filterMap_noticeOf? shown.own, foldl_setText]

/-- The label keeps showing its element. -/
theorem replay (shown : label.Shows document index) {changes : List Document.Change}
    {chain : List Style.StyleRef} (framed : Framed chain document (document.replay changes)) :
    (label.hear ((document.replay changes).notices.drop document.notices.length)).Shows
      (document.replay changes) index := by
  have inside : index < document.size := by
    obtain ⟨⟨element, found, -⟩, -⟩ := Document.indexOf?_eq_some_iff.1 shown.first
    exact Document.lt_size_of_get? found
  have first := Document.indexOf?_replay shown.first changes
  have own (other : Nat) :
      (document.replay changes).listenerAt other = some label.handle ↔ other = index := by
    rw [Document.listenerAt_replay, shown.own]
  have text := Document.textAt_replay framed inside
  rw [shown.hear_eq]
  cases last : (Document.textsOn index (document.eventsOf changes)).getLast? with
  | none => exact ⟨first, own, by rw [text, last, Option.none_or, ← shown.text_eq]; rfl⟩
  | some new => exact ⟨first, own, by rw [text, last, Option.some_or]; rfl⟩

/-- Another listener leaves the label alone. -/
theorem bind (shown : label.Shows document index) {id : ElementId} {handle : Handle} {place : Nat}
    {after : Document} (apart : label.handle ≠ handle)
    (free : document.freeIndex? id = some place) (bound : document.bind? id handle = some after) :
    label.Shows after index where
  first := (Document.indexOf?_bind? bound _).trans shown.first
  own other := by
    rw [Document.listenerAt_bind? free bound, ← shown.own]
    split
    · next here => simp [here, (Document.freeIndex?_eq_some_iff.1 free).2, Ne.symm apart]
    · rfl
  text_eq := (Document.textAt_bind? bound index).symm ▸ shown.text_eq

/-- A label whose listener is new shows the element to which it is bound. -/
theorem of_bind {after : Document} (unused : ∀ other, document.listenerAt other ≠ some label.handle)
    (free : document.freeIndex? (.explicit label.id) = some index)
    (bound : document.bind? (.explicit label.id) label.handle = some after)
    (text_eq : label.text = (document.textAt index).getD "") : label.Shows after index where
  first := (Document.indexOf?_bind? bound _).trans (Document.freeIndex?_eq_some_iff.1 free).1
  own other := by
    rw [Document.listenerAt_bind? free bound]
    split
    · next here => simp [here]
    · next elsewhere => exact iff_of_false (unused other) elsewhere
  text_eq := (Document.textAt_bind? bound index).symm ▸ text_eq

end Shows

/-- A label that has not been updated is updated by the notices just if there is a text. -/
theorem Shows.updated_hear (shown : label.Shows document index) (asked : label.updated = false)
    (changes : List Document.Change) :
    (label.hear ((document.replay changes).notices.drop document.notices.length)).updated =
      !(Document.textsOn index (document.eventsOf changes)).isEmpty := by
  rw [shown.hear_eq]
  cases texts : Document.textsOn index (document.eventsOf changes) with
  | nil => exact asked
  | cons text rest =>
      rw [List.getLast?_cons]
      rfl

theorem id_hear (label : Label) (notices : List Notice) : (label.hear notices).id = label.id := by
  rw [hear, foldl_setText]
  cases ((notices.filter (·.handle == label.handle)).map (·.text)).getLast? <;> rfl

end Label

namespace Display

variable {display : Display} {page : Page}

/-- The labels show the page as it is. -/
structure InStep (display : Display) : Prop where
  /-- There is one label for each id of an element. -/
  ids_eq : display.labels.map (·.id) = display.page.document.ownIds
  /-- Each shows the first element with its id. -/
  shows : ∀ label ∈ display.labels, ∃ index, label.Shows display.page.document index
  /-- None has been updated since it was last asked. -/
  asked : ∀ label ∈ display.labels, label.updated = false

/-- In step, the labels are the explicit ids of the page in order, each with the text of its
element. -/
theorem InStep.labels_eq (inStep : display.InStep) :
    display.labels.map (fun label => (label.id, label.text)) =
      display.page.document.ownIds.map fun name =>
        (name, display.page.document.textOf name) := by
  rw [← inStep.ids_eq, List.map_map]
  apply List.map_congr_left
  intro label member
  obtain ⟨index, shown⟩ := inStep.shows label member
  rw [Function.comp_apply, shown.textOf_eq]

/-- Of a list that grows at its end, only a new member is kept. -/
theorem eraseDups_concat {α : Type _} [DecidableEq α] (list : List α) (a : α) :
    (list ++ [a]).eraseDups = if a ∈ list then list.eraseDups else list.eraseDups ++ [a] := by
  rw [List.eraseDups_append, List.removeAll]
  by_cases known : a ∈ list <;> simp [known, List.eraseDups_cons]

/-- The first elements of the page have been given labels. -/
structure Labelled (page : Page) (done : List Element) (display : Display) : Prop where
  /-- What the elements show is as it was. -/
  captions_eq : display.page.document.captions = page.document.captions
  /-- There is one label for each id of these elements. -/
  ids_eq : display.labels.map (·.id) = (done.filterMap (·.id.explicit?)).eraseDups
  /-- Each shows the first element with its id. -/
  shows : ∀ label ∈ display.labels, ∃ index, label.Shows display.page.document index
  /-- None has been updated. -/
  asked : ∀ label ∈ display.labels, label.updated = false
  /-- The listeners of the labels are numbered. -/
  numbered : ∀ label ∈ display.labels, label.handle.number < display.labels.length
  /-- There are no other listeners. -/
  listens : ∀ index handle, display.page.document.listenerAt index = some handle →
    ∃ label ∈ display.labels, label.handle = handle

namespace Labelled

variable {done rest : List Element} {element : Element} {name : String}

theorem filterMap_explicit?_concat (named : element.id = .explicit name) :
    (done ++ [element]).filterMap (·.id.explicit?) =
      done.filterMap (·.id.explicit?) ++ [name] := by
  simp [named, ElementId.explicit?]

/-- An id that has a label gets no other. -/
theorem addLabel_of_mem (labelled : Labelled page done display)
    (named : element.id = .explicit name)
    (known : name ∈ done.filterMap (·.id.explicit?)) :
    display.addLabel element = display := by
  obtain ⟨label, member, rfl⟩ : ∃ label ∈ display.labels, label.id = name := by
    rw [← List.mem_eraseDups, ← labelled.ids_eq] at known
    exact List.mem_map.1 known
  obtain ⟨index, shown⟩ := labelled.shows label member
  have taken : display.page.document.freeIndex? (.explicit label.id) = none := by
    simp [Document.freeIndex?, shown.first, (shown.own index).2 rfl, Option.filter_some]
  simp [addLabel, named, Page.bind?, Document.bind?_eq, taken]

/-- The first element with an id of its own has no listener yet. -/
theorem freeIndex?_eq (labelled : Labelled page done display)
    (whole : done ++ element :: rest = page.document.elements)
    (named : element.id = .explicit name) (unknown : name ∉ done.filterMap (·.id.explicit?)) :
    display.page.document.freeIndex? (.explicit name) = some done.length := by
  have others : ∀ other ∈ done, other.id ≠ .explicit name := fun other member same =>
    unknown (List.mem_filterMap.2 ⟨other, member, by rw [same]; rfl⟩)
  have first : display.page.document.indexOf? (.explicit name) = some done.length := by
    rw [Document.indexOf?_eq_findIdx?, labelled.captions_eq, ← Document.indexOf?_eq_findIdx?,
      Document.indexOf?, ← whole, List.findIdx?_append,
      List.findIdx?_eq_none_iff.2 fun other member => by simpa using others other member]
    simp [List.findIdx?_cons, named]
  refine Document.freeIndex?_eq_some_iff.2 ⟨first, ?_⟩
  cases listener : display.page.document.listenerAt done.length with
  | none => rfl
  | some handle =>
      -- the listener would be that of a label, which stands for one of the elements before
      obtain ⟨label, member, rfl⟩ := labelled.listens _ _ listener
      obtain ⟨index, shown⟩ := labelled.shows label member
      obtain rfl := (shown.own done.length).1 listener
      obtain ⟨⟨here, found, isNamed⟩, -⟩ := Document.indexOf?_eq_some_iff.1 first
      obtain ⟨⟨same, there, isLabelled⟩, -⟩ := Document.indexOf?_eq_some_iff.1 shown.first
      obtain rfl := Option.some.inj (found.symm.trans there)
      have equal : name = label.id := ElementId.explicit.inj (isNamed.symm.trans isLabelled)
      have known : label.id ∈ display.labels.map (·.id) := List.mem_map_of_mem member
      rw [labelled.ids_eq, List.mem_eraseDups, ← equal] at known
      exact absurd known unknown

/-- An id that has no label gets one. -/
theorem addLabel_of_not_mem (labelled : Labelled page done display)
    (whole : done ++ element :: rest = page.document.elements)
    (named : element.id = .explicit name) (unknown : name ∉ done.filterMap (·.id.explicit?)) :
    Labelled page (done ++ [element]) (display.addLabel element) := by
  let label : Label :=
    { id := name, handle := ⟨display.labels.length⟩, text := element.text.getD "" }
  have free := labelled.freeIndex?_eq whole named unknown
  obtain ⟨after, bound⟩ := Document.exists_bind? free label.handle
  have added : display.addLabel element =
      ⟨{ display.page with document := after }, display.labels ++ [label]⟩ := by
    simp [Display.addLabel, named, Page.bind?, bound, label]
  have fresh : ∀ old ∈ display.labels, old.handle ≠ label.handle := by
    intro old member same
    have below := labelled.numbered old member
    rw [same] at below
    exact Nat.lt_irrefl _ below
  have unused (other : Nat) : display.page.document.listenerAt other ≠ some label.handle := by
    intro listener
    obtain ⟨old, member, same⟩ := labelled.listens other _ listener
    exact fresh old member same
  have text : label.text = (display.page.document.textAt done.length).getD "" := by
    rw [Document.textAt_eq, labelled.captions_eq, ← Document.textAt_eq, Document.textAt,
      Document.get?, ← whole]
    simp [label]
  have oldShow : ∀ old ∈ display.labels, ∃ index, old.Shows after index := by
    intro old member
    obtain ⟨index, shown⟩ := labelled.shows old member
    exact ⟨index, shown.bind (fresh old member) free bound⟩
  rw [added]
  constructor
  · exact (Document.captions_bind? bound).trans labelled.captions_eq
  · rw [List.map_append, labelled.ids_eq, filterMap_explicit?_concat named, eraseDups_concat,
      if_neg unknown, List.map_singleton]
  · exact List.forall_mem_append.2
      ⟨oldShow, List.forall_mem_singleton.2 ⟨_, .of_bind unused free bound text⟩⟩
  · exact List.forall_mem_append.2 ⟨labelled.asked, List.forall_mem_singleton.2 rfl⟩
  · rw [List.length_append, List.length_singleton]
    refine List.forall_mem_append.2 ⟨fun old member => ?_, List.forall_mem_singleton.2 ?_⟩
    · exact Nat.lt_succ_of_lt (labelled.numbered old member)
    · exact Nat.lt_succ_self display.labels.length
  · intro index other listener
    rw [Document.listenerAt_bind? free bound] at listener
    split at listener
    · exact ⟨label, List.mem_append_right _ List.mem_cons_self, Option.some.inj listener⟩
    · obtain ⟨old, member, same⟩ := labelled.listens index other listener
      exact ⟨old, List.mem_append_left _ member, same⟩

/-- One more element is given a label. -/
theorem addLabel (labelled : Labelled page done display)
    (whole : done ++ element :: rest = page.document.elements) :
    Labelled page (done ++ [element]) (display.addLabel element) := by
  have unchanged (ids : ((done ++ [element]).filterMap (·.id.explicit?)).eraseDups =
      (done.filterMap (·.id.explicit?)).eraseDups) :
      Labelled page (done ++ [element]) display :=
    { labelled with ids_eq := labelled.ids_eq.trans ids.symm }
  cases named : element.id with
  | generated number =>
      have same : display.addLabel element = display := by simp [Display.addLabel, named]
      rw [same]
      exact unchanged (by simp [named, Document.ElementId.explicit?])
  | explicit name =>
      by_cases known : name ∈ done.filterMap (·.id.explicit?)
      · rw [labelled.addLabel_of_mem named known]
        exact unchanged (by
          rw [filterMap_explicit?_concat named, eraseDups_concat, if_pos known])
      · exact labelled.addLabel_of_not_mem whole named known

/-- Adding labels along the elements labels all of them. -/
theorem foldl_addLabel (labelled : Labelled page done display)
    (whole : done ++ rest = page.document.elements) :
    Labelled page page.document.elements (rest.foldl Display.addLabel display) := by
  induction rest generalizing done display with
  | nil =>
      rw [List.append_nil] at whole
      exact whole ▸ labelled
  | cons element rest ih =>
      exact ih (labelled.addLabel whole) (by rw [← whole, List.append_assoc]; rfl)

end Labelled

/-- The elements of a page without listeners are given labels. -/
theorem labelled_ofPage (unbound : ∀ index, page.document.listenerAt index = none) :
    Labelled page page.document.elements (ofPage page) :=
  have begun : Labelled page [] { page } :=
    ⟨rfl, rfl, nofun, nofun, nofun, fun index handle listener => by simp [unbound] at listener⟩
  begun.foldl_addLabel (List.nil_append _)

theorem Labelled.ownIds_eq (labelled : Labelled page page.document.elements display) :
    display.page.document.ownIds = page.document.ownIds := by
  rw [Document.ownIds_eq, labelled.captions_eq, ← Document.ownIds_eq]

/-- When all elements have been looked at, labels and page are in step. -/
theorem Labelled.inStep (labelled : Labelled page page.document.elements display) :
    display.InStep :=
  ⟨labelled.ids_eq.trans labelled.ownIds_eq.symm, labelled.shows, labelled.asked⟩

/-! ## Clicks -/

namespace InStep

/-- The labels as the notices of a click leave them. -/
theorem refreshed (inStep : display.InStep) (id : ElementId) :
    let after := display.page.afterClick id
    let notices := after.document.notices.drop display.page.document.notices.length
    let labels := display.labels.map (·.hear notices)
    InStep ⟨after, labels.map (·.takeUpdated.1)⟩ ∧
      (labels.filter (·.takeUpdated.2)).map (·.line) =
        (display.page.idsSet id).map after.captionLine := by
  intro after notices labels
  obtain ⟨chain, framed⟩ := display.page.exists_framed_afterClick id
  have replayed : after.document = display.page.document.replay (display.page.clickChanges id) :=
    display.page.document_afterClick id
  have heard : ∀ label ∈ display.labels, ∃ index, (label.hear notices).Shows after.document index ∧
      (label.hear notices).updated = !(display.page.textsSet id label.id).isEmpty := by
    intro label member
    obtain ⟨index, shown⟩ := inStep.shows label member
    simp only [notices, replayed]
    refine ⟨index, shown.replay framed, ?_⟩
    rw [shown.updated_hear (inStep.asked label member), Page.textsSet, shown.first]
  constructor
  · refine ⟨?_, ?_, ?_⟩
    · simp only [replayed, framed.ownIds_eq, ← inStep.ids_eq, labels, List.map_map]
      exact List.map_congr_left fun label _ => label.id_hear notices
    · intro label member
      simp only [labels, List.map_map, List.mem_map] at member
      obtain ⟨old, known, rfl⟩ := member
      obtain ⟨index, shown, -⟩ := heard old known
      exact ⟨index, shown.first, shown.own, shown.text_eq⟩
    · intro label member
      obtain ⟨old, -, rfl⟩ := List.mem_map.1 member
      rfl
  · rw [Page.idsSet, ← inStep.ids_eq, List.filter_map, List.map_map, List.filter_map, List.map_map]
    have updated : display.labels.filter ((·.takeUpdated.2) ∘ (·.hear notices)) =
        display.labels.filter
          ((fun name => !(display.page.textsSet id name).isEmpty) ∘ (·.id)) := by
      refine List.filter_congr fun label member => ?_
      obtain ⟨index, -, updated⟩ := heard label member
      exact updated
    rw [updated]
    refine List.map_congr_left fun label member => ?_
    obtain ⟨index, shown, -⟩ := heard label (List.mem_of_mem_filter member)
    have text := shown.textOf_eq
    rw [label.id_hear] at text
    simp only [Function.comp_apply, Label.line, label.id_hear, Page.captionLine, text]
    rfl

/-- A click keeps the labels in step and prints the lines that it should. -/
theorem click (inStep : display.InStep) (id : String) :
    (display.click id).1.page = display.page.afterClick (.explicit id) ∧
      (display.click id).1.InStep ∧ (display.click id).2 = display.page.clickLines id := by
  obtain ⟨kept, lines⟩ := inStep.refreshed (.explicit id)
  cases found : display.page.document.find? (.explicit id) with
  | none =>
      have failed : display.page.click (.explicit id) =
          .error (.unknownElement (.explicit id)) := by
        simp only [Page.click, found]
      have expected : display.page.clickLines id = ["-- click #" ++ id, "(unknown element)"] := by
        simp only [Page.clickLines, found]
      rw [Display.click, Page.afterClick, failed, expected]
      exact ⟨rfl, inStep, rfl⟩
  | some element =>
      cases own : element.clickHandler? with
      | none =>
          have clicked : display.page.click (.explicit id) = .ok (display.page, none) := by
            simp only [Page.click, found, own]
          have still : display.page.clickChanges (.explicit id) = [] := by
            simp only [Page.clickChanges, found, own]
          have expected : display.page.clickLines id = ["-- click #" ++ id, "(no handler)"] := by
            simp only [Page.clickLines, found, own]
          rw [display.page.idsSet_of_clickChanges_eq_nil still] at lines
          rw [Page.afterClick, clicked] at kept lines
          rw [Display.click, Page.afterClick, clicked, expected]
          exact ⟨rfl, kept, congrArg (["-- click #" ++ id, "(no handler)"] ++ ·) lines⟩
      | some handler =>
          let ran := display.page.runScript handler element.chain
          have clicked : display.page.click (.explicit id) = .ok (ran.1, some ran.2) := by
            simp only [Page.click, found, own, ran]
          have expected : display.page.clickLines id = ("-- click #" ++ id) :: (ran.2.lines ++
              (display.page.idsSet (.explicit id)).map
                (display.page.afterClick (.explicit id)).captionLine) := by
            simp only [Page.clickLines, found, own, ran]
          rw [Page.afterClick, clicked] at kept lines expected
          rw [Display.click, Page.afterClick, clicked, expected]
          exact ⟨rfl, kept, congrArg (("-- click #" ++ id) :: ran.2.lines ++ ·) lines⟩

end InStep

/-- The display after several clicks, one after the other. -/
def after (display : Display) (clicks : List String) : Display :=
  clicks.foldl (fun display id => (display.click id).1) display

namespace InStep

/-- Labels and page stay in step through any clicks. -/
theorem after (inStep : display.InStep) (clicks : List String) :
    (display.after clicks).InStep := by
  induction clicks generalizing display with
  | nil => exact inStep
  | cons id rest ih => exact ih (inStep.click id).2.1

/-- Clicks add no explicit id, so the labels are those of the page as it was read. -/
theorem ownIds_after (inStep : display.InStep) (clicks : List String) :
    (display.after clicks).page.document.ownIds = display.page.document.ownIds := by
  induction clicks generalizing display with
  | nil => rfl
  | cons id rest ih =>
      obtain ⟨page, kept, -⟩ := inStep.click id
      obtain ⟨chain, framed⟩ := display.page.exists_framed_afterClick (.explicit id)
      refine (ih kept).trans ?_
      rw [page, Page.document_afterClick, framed.ownIds_eq]

/-- What the clicks print is what the page tells of them, without a look at the labels. -/
theorem clickAll_eq (inStep : display.InStep) (clicks : List String) :
    display.clickAll clicks = display.page.linesOfClicks clicks := by
  induction clicks generalizing display with
  | nil => rfl
  | cons id rest ih =>
      obtain ⟨page, kept, lines⟩ := inStep.click id
      have split : display.clickAll (id :: rest) =
          (display.click id).2 ++ (display.click id).1.clickAll rest := rfl
      rw [split, ih kept, page, lines, Page.linesOfClicks]

/-- Labels do not change what the clicks make of the page. -/
theorem page_after (inStep : display.InStep) (clicks : List String) :
    (display.after clicks).page = display.page.afterClicks (clicks.map .explicit) := by
  induction clicks generalizing display with
  | nil => rfl
  | cons id rest ih =>
      obtain ⟨page, kept, -⟩ := inStep.click id
      have later := ih kept
      rwa [page] at later

end InStep

end Display

/-- Whatever the encodings, the bytes of the file and the clicks, there is one label for each id
that elements of the page have of their own, in the order in which the ids first come, and after the
clicks it shows the text of the first element with the id.  A click prints what came of it and then,
in the order of the labels, one line for each id whose element was given a text by the script that
it ran, with the text that the element shows now. -/
theorem labels_after (catalog : Encoding.Catalog) (bytes : List UInt8) (clicks : List String) :
    let page := Page.parse {} (Encoding.decodePage catalog bytes)
    let display := Display.ofPage page
    let later := display.after clicks
    display.page.document.captions = page.document.captions ∧
      later.page = display.page.afterClicks (clicks.map .explicit) ∧
      later.labels.map (fun label => (label.id, label.text)) =
        page.document.ownIds.map (fun name => (name, later.page.document.textOf name)) ∧
      printed catalog bytes clicks =
        pageLines display.page ++ display.page.linesOfClicks clicks := by
  intro page display later
  have labelled : Display.Labelled page page.document.elements display :=
    Display.labelled_ofPage (Page.listenerAt_parse {} (Encoding.decodePage catalog bytes))
  have inStep := labelled.inStep
  have ids : later.page.document.ownIds = page.document.ownIds :=
    (inStep.ownIds_after clicks).trans labelled.ownIds_eq
  refine ⟨labelled.captions_eq, inStep.page_after clicks, ?_, ?_⟩
  · rw [← ids]
    exact (inStep.after clicks).labels_eq
  · exact congrArg (pageLines display.page ++ ·) (inStep.clickAll_eq clicks)

/-- A page in an encoding of one byte to the character, with two elements of one id and a script
that gives one text after another to an element. -/
def russianPage : List UInt8 :=
  "<meta charset=windows-1251><p id=a onclick=f()>".toUTF8.toList ++ [0xC4, 0xE0] ++
    ("</p><b id=b>1</b><i id=a>3</i><script>function f() \x7b\n" ++
      "document.getElementById('b').innerText = 2\n" ++
      "document.getElementById('b').innerText = n\n" ++
      "n = n + 1 \x7d\nvar n = 5</script>").toUTF8.toList

/-- Of four clicks the first and the last run the script, and the last text that it sets is the one
shown; one element has no handler, and one is not there. -/
theorem labels_after_russianPage :
    let page := Page.parse {} (Encoding.decodePage .basic russianPage)
    let later := (Display.ofPage page).after ["a", "b", "c", "a"]
    later.labels.map (fun label => (label.id, label.text)) = [("a", "Да"), ("b", "6")] ∧
      printed .basic russianPage ["a", "b", "c", "a"] =
        ["p #a: Да", "b #b: 1", "i #a: 3", "-- click #a", "#b = 5", "-- click #b",
          "(no handler)", "-- click #c", "(unknown element)", "-- click #a", "#b = 6"] := by
  obtain ⟨-, clicked, labels, lines⟩ := labels_after .basic russianPage ["a", "b", "c", "a"]
  rw [clicked] at labels
  refine And.imp labels.trans lines.trans ?_
  decide +kernel

end CommandLine
end Pagelet
