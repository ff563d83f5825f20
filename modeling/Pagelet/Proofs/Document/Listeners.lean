import Pagelet.Document.Handles
import Pagelet.Proofs.Document.Changes

/-!
# What listeners learn

A listener is to learn of every text that is set on an element while it is bound to it,
and of nothing else.  The history of a document says when listeners were bound and
dropped and when texts were set; what the listener of a name should have learned can be
read off it, whichever numbers listeners have.
-/

namespace Pagelet
namespace Document

/-- What listeners are concerned with. -/
inductive Event
  /-- The listener of a name was bound to the element at an index. -/
  | bound (index : Nat) (name : String)
  /-- The listener of a name was dropped. -/
  | dropped (name : String)
  /-- The element at an index got a text. -/
  | textSet (index : Nat) (text : String)
deriving DecidableEq, Repr

/-- The text that a change sets, if any, behind the index of the element.  An element may
have one when it is added. -/
def Change.textSet? (document : Document) : Change → Option (Nat × String)
  | .add draft => draft.textOverride.map fun text => (document.size, text)
  | .setText id text => (document.indexOf? id).map fun index => (index, text)
  | .append .. | .setHandler .. => none

/-- The texts that several changes set. -/
def eventsOf (document : Document) : List Change → List Event
  | [] => []
  | change :: rest =>
      ((change.textSet? document).map fun (index, text) => .textSet index text).toList ++
        (document.apply change).eventsOf rest

/-- What the listener of a name should know. -/
structure Audience where
  /-- The indices of the elements to which it is bound. -/
  elements : List Nat := []
  /-- The texts that were set on them while it was bound, in order. -/
  texts : List String := []
deriving DecidableEq, Repr

/-- What the listener of the name should know after an event.  When it is dropped, the
next listener of the name knows nothing. -/
def Audience.hear (name : String) (audience : Audience) : Event → Audience
  | .bound index other =>
      if other = name then { audience with elements := index :: audience.elements }
      else audience
  | .dropped other => if other = name then {} else audience
  | .textSet index text =>
      if index ∈ audience.elements then { audience with texts := audience.texts ++ [text] }
      else audience

/-- What the listener of the name should know after several events. -/
def audience (name : String) (events : List Event) : Audience :=
  events.foldl (Audience.hear name) {}

theorem audience_concat (name : String) (events : List Event) (event : Event) :
    audience name (events ++ [event]) = (audience name events).hear name event := by
  simp [audience]

/-- The texts that were set on the element at an index, in order. -/
def textsOn (index : Nat) (events : List Event) : List String :=
  events.filterMap fun
    | .textSet other text => if other = index then some text else none
    | .bound .. | .dropped _ => none

theorem textsOn_append (index : Nat) (first second : List Event) :
    textsOn index (first ++ second) = textsOn index first ++ textsOn index second :=
  List.filterMap_append

/-- The listener at a place is told by the handles of the elements. -/
theorem listenerAt_eq_join (document : Document) (index : Nat) :
    document.listenerAt index = ((document.elements.map (·.handle))[index]?).join := by
  rw [listenerAt, get?, List.getElem?_map]
  cases document.elements[index]? <;> rfl

/-- No change binds a listener. -/
@[simp]
theorem listenerAt_apply (document : Document) (change : Change) (index : Nat) :
    (document.apply change).listenerAt index = document.listenerAt index := by
  have listeners : (document.apply change).elements.map (·.handle) =
      document.elements.map (·.handle) ++ (change.draft?.map fun _ => none).toList :=
    map_elements_apply (fun _ _ _ _ => rfl) document change
  rw [listenerAt_eq_join, listenerAt_eq_join, listeners]
  cases change.draft? with
  | none => simp
  | some draft => grind

/-- Changes bind no handle. -/
@[simp]
theorem listenerAt_replay (document : Document) (changes : List Change) (index : Nat) :
    (document.replay changes).listenerAt index = document.listenerAt index := by
  induction changes generalizing document with
  | nil => rfl
  | cons change rest ih => rw [replay_cons, ih, listenerAt_apply]

/-- Nobody listens behind the last element. -/
theorem listenerAt_size (document : Document) : document.listenerAt document.size = none := by
  simp [listenerAt, get?, size]

/-- No other element gets the listener. -/
theorem listenerAt_bind? {document after : Document} {id : ElementId} {handle : Handle}
    {index : Nat} (free : document.freeIndex? id = some index)
    (bound : document.bind? id handle = some after) (other : Nat) :
    after.listenerAt other = if other = index then some handle else document.listenerAt other := by
  obtain ⟨-, rfl⟩ := bind?_eq_some_iff.1 bound
  obtain ⟨here, -⟩ := freeIndex?_eq_some_iff.1 free
  obtain ⟨⟨element, found, -⟩, -⟩ := indexOf?_eq_some_iff.1 here
  rw [listenerAt, get?_update, here]
  by_cases same : other = index
  · simp [same, found]
  · simp [same, Ne.symm same, listenerAt]

/-- A text that is set sends a notice to the listener of the element, and nothing else
does. -/
theorem notices_apply (document : Document) (change : Change) :
    (document.apply change).notices = document.notices ++
      ((change.textSet? document).bind fun (index, text) =>
        (document.listenerAt index).map (⟨·, text⟩)).toList := by
  cases change with
  | add draft =>
      cases given : draft.textOverride <;>
        simp [apply, add, Change.textSet?, given, listenerAt_size]
  | append index fragment separated => simp [apply, append, Change.textSet?]
  | setText id text =>
      simp only [apply, setText, Change.textSet?]
      split
      · next absent => simp [(indexOf?_eq_none_iff document id).2 absent]
      · next element found =>
        rw [find?_eq_bind_indexOf?, Option.bind_eq_some_iff] at found
        obtain ⟨index, here, found⟩ := found
        simp [here, noticesOf, listenerAt, found]
  | setHandler id handler => simp [apply, setHandler, update, Change.textSet?]

theorem notices_bind? {document after : Document} {id : ElementId} {handle : Handle}
    (bound : document.bind? id handle = some after) : after.notices = document.notices := by
  obtain ⟨-, rfl⟩ := bind?_eq_some_iff.1 bound
  rfl

/-- The text that was set on the element at an index. -/
def overrideAt (document : Document) (index : Nat) : Option String :=
  (document.get? index).bind (·.textOverride)

/-- An element keeps the text that was set last. -/
theorem overrideAt_apply (document : Document) (change : Change) (index : Nat) :
    (document.apply change).overrideAt index =
      ((change.textSet? document).bind fun (place, text) =>
        if place = index then some text else none).or (document.overrideAt index) := by
  cases change with
  | add draft =>
      have outside : document.overrideAt document.size = none := by simp [overrideAt, get?, size]
      rw [apply, overrideAt, get?_add, Change.textSet?]
      by_cases last : index = document.size
      · subst last
        cases given : draft.textOverride <;> simp [realize, given, outside]
      · cases draft.textOverride <;> simp [last, Ne.symm last, overrideAt]
  | append place fragment separated =>
      simp only [apply, append, overrideAt, get?, List.getElem?_modify, Change.textSet?]
      split <;> cases document.elements[index]? <;> simp [Element.append]
  | setText id text =>
      rw [apply, overrideAt, get?_setText, Change.textSet?]
      cases here : document.indexOf? id with
      | none => simp [overrideAt]
      | some place =>
          by_cases same : place = index
          · obtain ⟨⟨element, found, -⟩, -⟩ := indexOf?_eq_some_iff.1 here
            simp [← same, found]
          · simp [same, overrideAt]
  | setHandler id handler =>
      rw [apply, setHandler, overrideAt, get?_update, Change.textSet?]
      split <;> cases found : document.get? index <;> simp [overrideAt, found]

/-- Binding a listener sets no text. -/
theorem overrideAt_bind? {document after : Document} {id : ElementId} {handle : Handle}
    (bound : document.bind? id handle = some after) (index : Nat) :
    after.overrideAt index = document.overrideAt index := by
  obtain ⟨-, rfl⟩ := bind?_eq_some_iff.1 bound
  rw [overrideAt, get?_update]
  split <;> cases found : document.get? index <;> simp [overrideAt, found]

/-- The last text set on an element is the one it shows. -/
theorem overrideAt_replay (document : Document) (changes : List Change) (index : Nat) :
    (document.replay changes).overrideAt index =
      (textsOn index (document.eventsOf changes)).getLast?.or (document.overrideAt index) := by
  induction changes generalizing document with
  | nil => rfl
  | cons change rest ih =>
      rw [replay_cons, ih, overrideAt_apply, eventsOf, textsOn_append, List.getLast?_append,
        Option.or_assoc]
      congr 2
      cases change.textSet? document with
      | none => rfl
      | some set =>
          obtain ⟨place, text⟩ := set
          by_cases same : place = index <;> simp [textsOn, same]

/-! ## What has been heard -/

/-- The listeners that are alive know what they should.  Numbers tell them apart from each
other, from those that were dropped and from those still to come. -/
structure Heard (handles : Handles) (document : Document) (events : List Event) : Prop where
  /-- No listener that is alive is still to come. -/
  named_lt : ∀ {name : String} {handle : Handle}, handles.named[name]? = some handle →
    handle.number < handles.nextNumber
  /-- No listener of an element is still to come. -/
  listenerAt_lt : ∀ {index : Nat} {handle : Handle}, document.listenerAt index = some handle →
    handle.number < handles.nextNumber
  /-- No listener that was sent a notice is still to come. -/
  notices_lt : ∀ notice ∈ document.notices, notice.handle.number < handles.nextNumber
  /-- Each listener has one name. -/
  named_inj : ∀ {first second : String} {handle : Handle},
    handles.named[first]? = some handle → handles.named[second]? = some handle →
      first = second
  /-- A listener that is alive is bound to the elements that it should be bound to. -/
  bound_iff : ∀ {name : String} {handle : Handle}, handles.named[name]? = some handle →
    ∀ index, document.listenerAt index = some handle ↔
      index ∈ (audience name events).elements
  /-- It knows the texts that it should know. -/
  texts_eq : ∀ {name : String} {handle : Handle}, handles.named[name]? = some handle →
    Handles.texts document handle = (audience name events).texts
  /-- Where there is no listener, nothing should be known. -/
  audience_eq : ∀ {name : String}, handles.named[name]? = none → audience name events = {}

/-- A text that is set moves no audience. -/
theorem Audience.elements_hear_textSet (name : String) (audience : Audience) (index : Nat)
    (text : String) : (audience.hear name (.textSet index text)).elements = audience.elements := by
  rw [hear]
  split <;> rfl

/-- An audience that includes the element gets the text at the end of those it has. -/
theorem Audience.texts_hear_textSet (name : String) (audience : Audience) (index : Nat)
    (text : String) :
    (audience.hear name (.textSet index text)).texts =
      audience.texts ++ if index ∈ audience.elements then [text] else [] := by
  rw [hear]
  split <;> simp

/-- A name that is known keeps its handle. -/
theorem obtain_of_some {handles : Handles} {name : String} {handle : Handle}
    (known : handles.named[name]? = some handle) : handles.obtain name = (handles, handle) := by
  simp [Handles.obtain, known]

/-- A new listener gets the next number. -/
theorem obtain_of_none {handles : Handles} {name : String}
    (unnamed : handles.named[name]? = none) :
    handles.obtain name =
      (⟨handles.named.insert name ⟨handles.nextNumber⟩, handles.nextNumber + 1⟩,
        ⟨handles.nextNumber⟩) := by
  simp [Handles.obtain, unnamed]

theorem getElem?_obtain (handles : Handles) (name other : String) :
    (handles.obtain name).1.named[other]? =
      if name = other then some (handles.obtain name).2 else handles.named[other]? := by
  cases known : handles.named[name]? with
  | some handle =>
      rw [obtain_of_some known]
      split
      · next same => exact same ▸ known
      · rfl
  | none => simp [obtain_of_none known, Std.ExtTreeMap.getElem?_insert]

namespace Heard

variable {handles : Handles} {document : Document} {events : List Event}

/-- Nothing has been heard where no handle is known, bound or noticed. -/
theorem nil (none_named : handles.named = ∅) (none_noticed : document.notices = [])
    (none_bound : ∀ index, document.listenerAt index = none) : Heard handles document [] where
  named_lt named := by simp [none_named] at named
  listenerAt_lt bound := by simp [none_bound] at bound
  notices_lt := by simp [none_noticed]
  named_inj named := by simp [none_named] at named
  bound_iff named := by simp [none_named] at named
  texts_eq named := by simp [none_named] at named
  audience_eq _ := rfl

/-- What has been heard depends on the listeners and the notices alone. -/
theorem congr (heard : Heard handles document events) {after : Document}
    (listeners : ∀ other, after.listenerAt other = document.listenerAt other)
    (notices : after.notices = document.notices) : Heard handles after events where
  named_lt := heard.named_lt
  listenerAt_lt bound := heard.listenerAt_lt (listeners _ ▸ bound)
  notices_lt := notices ▸ heard.notices_lt
  named_inj := heard.named_inj
  bound_iff named index := listeners index ▸ heard.bound_iff named index
  texts_eq named := by
    rw [← heard.texts_eq named, Handles.texts, notices, Handles.texts]
  audience_eq := heard.audience_eq

/-- Those to whom the element is bound hear of a text that is set on it. -/
theorem textSet (heard : Heard handles document events) {after : Document} {index : Nat}
    {text : String} (listeners : ∀ other, after.listenerAt other = document.listenerAt other)
    (notices : after.notices =
      document.notices ++ ((document.listenerAt index).map (⟨·, text⟩)).toList) :
    Heard handles after (events ++ [.textSet index text]) where
  named_lt := heard.named_lt
  listenerAt_lt bound := heard.listenerAt_lt (listeners _ ▸ bound)
  notices_lt notice member := by
    rw [notices, List.mem_append] at member
    rcases member with earlier | new
    · exact heard.notices_lt notice earlier
    · cases bound : document.listenerAt index with
      | none => simp [bound] at new
      | some handle =>
          obtain rfl : notice = ⟨handle, text⟩ := by simpa [bound] using new
          exact heard.listenerAt_lt bound
  named_inj := heard.named_inj
  bound_iff named other := by
    rw [audience_concat, Audience.elements_hear_textSet, listeners]
    exact heard.bound_iff named other
  texts_eq {name handle} named := by
    rw [audience_concat, Audience.texts_hear_textSet, ← heard.texts_eq named, Handles.texts,
      notices, List.filter_append, List.map_append, Handles.texts]
    congr 1
    have bound := heard.bound_iff named index
    cases listener : document.listenerAt index with
    | none => simp [← bound, listener]
    | some other => by_cases same : other = handle <;> simp [← bound, listener, same]
  audience_eq unnamed := by
    rw [audience_concat, heard.audience_eq unnamed]
    rfl

/-- A change is heard by those to whom it matters. -/
theorem apply (heard : Heard handles document events) (change : Change) :
    Heard handles (document.apply change)
      (events ++ ((change.textSet? document).map fun (index, text) =>
        .textSet index text).toList) := by
  have listeners := listenerAt_apply document change
  have notices := notices_apply document change
  cases set : change.textSet? document with
  | some place =>
      rw [set] at notices
      exact heard.textSet listeners notices
  | none =>
      rw [set] at notices
      simpa using heard.congr listeners (by simpa using notices)

/-- Replayed changes are heard in order. -/
theorem replay (heard : Heard handles document events) (changes : List Change) :
    Heard handles (document.replay changes) (events ++ document.eventsOf changes) := by
  induction changes generalizing document events with
  | nil => simpa [eventsOf] using heard
  | cons change rest ih =>
      rw [eventsOf, ← List.append_assoc]
      exact ih (heard.apply change)

/-- No element has a listener that is still to come. -/
theorem unbound_next (heard : Heard handles document events) (index : Nat) :
    document.listenerAt index ≠ some ⟨handles.nextNumber⟩ :=
  fun bound => Nat.lt_irrefl _ (heard.listenerAt_lt bound)

/-- No text was sent to a listener that is still to come. -/
theorem unsent_next (heard : Heard handles document events) :
    Handles.texts document ⟨handles.nextNumber⟩ = [] := by
  rw [Handles.texts, List.map_eq_nil_iff, List.filter_eq_nil_iff]
  intro notice member same
  have below := heard.notices_lt notice member
  simp [eq_of_beq same] at below

/-- Making a listener for a name is of no concern to the others. -/
theorem obtain (heard : Heard handles document events) (name : String) :
    Heard (handles.obtain name).1 document events := by
  cases known : handles.named[name]? with
  | some handle => rwa [obtain_of_some known]
  | none =>
    have lookup := getElem?_obtain handles name
    rw [obtain_of_none known] at lookup ⊢
    have cases_named {other : String} {handle : Handle}
        (named : (handles.named.insert name ⟨handles.nextNumber⟩)[other]? = some handle) :
        name = other ∧ handle = ⟨handles.nextNumber⟩ ∨ handles.named[other]? = some handle := by
      rw [lookup] at named
      split at named
      · next same => exact .inl ⟨same, (Option.some.inj named).symm⟩
      · exact .inr named
    constructor
    · intro other handle named
      rcases cases_named named with ⟨-, rfl⟩ | earlier
      · exact Nat.lt_succ_self _
      · exact Nat.lt_succ_of_lt (heard.named_lt earlier)
    · intro index handle bound
      exact Nat.lt_succ_of_lt (heard.listenerAt_lt bound)
    · intro notice member
      exact Nat.lt_succ_of_lt (heard.notices_lt notice member)
    · intro first second handle named also
      rcases cases_named named with ⟨rfl, rfl⟩ | earlier <;>
        rcases cases_named also with ⟨rfl, new⟩ | before
      · rfl
      · exact absurd (heard.named_lt before) (Nat.lt_irrefl _)
      · exact absurd (new ▸ heard.named_lt earlier) (Nat.lt_irrefl _)
      · exact heard.named_inj earlier before
    · intro other handle named index
      rcases cases_named named with ⟨rfl, rfl⟩ | earlier
      · simp [heard.unbound_next, heard.audience_eq known]
      · exact heard.bound_iff earlier index
    · intro other handle named
      rcases cases_named named with ⟨rfl, rfl⟩ | earlier
      · simp [heard.unsent_next, heard.audience_eq known]
      · exact heard.texts_eq earlier
    · intro other unnamed
      rw [lookup] at unnamed
      split at unnamed
      · cases unnamed
      · exact heard.audience_eq unnamed

/-- Binding the listener of a name is of no concern to the others. -/
theorem bind (heard : Heard handles document events) {name : String} {handle : Handle}
    (named : handles.named[name]? = some handle) {after : Document} {index : Nat}
    (free : document.listenerAt index = none)
    (listeners : ∀ other, after.listenerAt other =
      if other = index then some handle else document.listenerAt other)
    (notices : after.notices = document.notices) :
    Heard handles after (events ++ [.bound index name]) where
  named_lt := heard.named_lt
  listenerAt_lt {other bound} listener := by
    rw [listeners] at listener
    split at listener
    · exact Option.some.inj listener ▸ heard.named_lt named
    · exact heard.listenerAt_lt listener
  notices_lt := notices ▸ heard.notices_lt
  named_inj := heard.named_inj
  bound_iff {other bound} known place := by
    have before := heard.bound_iff known place
    rw [audience_concat, listeners, Audience.hear]
    by_cases same : name = other
    · subst same
      obtain rfl := Option.some.inj (named.symm.trans known)
      by_cases here : place = index <;> simp [here, before]
    · have differ : handle ≠ bound := fun equal => same (heard.named_inj (equal ▸ named) known)
      by_cases here : place = index
      · subst here
        simp [same, differ, ← before, free]
      · simp [same, here, before]
  texts_eq {other bound} known := by
    rw [audience_concat, Handles.texts, notices, Audience.hear]
    split <;> exact heard.texts_eq known
  audience_eq {other} unnamed := by
    have differ : name ≠ other := by
      rintro rfl
      simp [named] at unnamed
    rw [audience_concat, heard.audience_eq unnamed, Audience.hear, if_neg differ]

/-- Dropping the listener of a name is of no concern to the others. -/
theorem drop (heard : Heard handles document events) (name : String) :
    Heard (handles.drop name).1 document (events ++ [.dropped name]) := by
  have lookup (other : String) : (handles.drop name).1.named[other]? =
      if name = other then none else handles.named[other]? := by
    simp [Handles.drop, Std.ExtTreeMap.getElem?_erase]
  have cases_named {other : String} {handle : Handle}
      (named : (handles.drop name).1.named[other]? = some handle) :
      name ≠ other ∧ handles.named[other]? = some handle := by
    rw [lookup] at named
    split at named
    · cases named
    · next differ => exact ⟨differ, named⟩
  have unchanged {other : String} (differ : name ≠ other) :
      audience other (events ++ [.dropped name]) = audience other events := by
    rw [audience_concat, Audience.hear, if_neg differ]
  constructor
  · intro other handle named
    exact heard.named_lt (cases_named named).2
  · intro index handle bound
    exact heard.listenerAt_lt bound
  · exact heard.notices_lt
  · intro first second handle named also
    exact heard.named_inj (cases_named named).2 (cases_named also).2
  · intro other handle named index
    obtain ⟨differ, earlier⟩ := cases_named named
    exact unchanged differ ▸ heard.bound_iff earlier index
  · intro other handle named
    obtain ⟨differ, earlier⟩ := cases_named named
    exact unchanged differ ▸ heard.texts_eq earlier
  · intro other unnamed
    rw [lookup] at unnamed
    by_cases same : name = other
    · rw [audience_concat, Audience.hear, if_pos same]
    · rw [if_neg same] at unnamed
      rw [unchanged same, heard.audience_eq unnamed]

end Heard

end Document
end Pagelet
