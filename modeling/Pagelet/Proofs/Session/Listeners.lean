import Pagelet.Proofs.Document.Listeners
import Pagelet.Proofs.Session.Operations

/-!
# Listeners in a session

A listener that is alive has been sent exactly the texts that the caller or a script set
on its elements since they were bound to it, in order.  An element keeps its first
listener, even when that is dropped, and shows the text that was set on it last.
-/

namespace Pagelet
namespace Session

open Document (Event Handle Handles Heard audience textsOn)

variable (limits : Script.Limits) (session : Session)

/-- What an operation means to listeners.  A listener is bound to the first element with
the identity, unless it has one already. -/
def events : Operation → List Event
  | .bind id name => ((session.document.freeIndex? id).map (.bound · name)).toList
  | .drop name => [.dropped name]
  | .edit change => session.document.eventsOf (session.changes limits (.edit change))
  | .run chain source => session.document.eventsOf (session.changes limits (.run chain source))

/-- What several operations mean to listeners. -/
def history (session : Session) : List Operation → List Event
  | [] => []
  | operation :: rest =>
      session.events limits operation ++ (session.step limits operation).history rest

/-- Whether the listener of a name is alive after an operation. -/
def livesAfter (name : String) (lives : Bool) : Operation → Bool
  | .bind _ other => lives || other == name
  | .drop other => lives && other != name
  | .edit _ | .run .. => lives

/-- There is no listener, and none has been sent a text. -/
structure Unheard : Prop where
  /-- No listener is alive. -/
  named_eq : session.handles.named = ∅
  /-- No text has been sent. -/
  notices_eq : session.document.notices = []
  /-- No element has a listener. -/
  listenerAt_eq : ∀ index, session.document.listenerAt index = none

variable {session}

/-- What an operation lets listeners hear is what its events tell. -/
theorem heard_step {earlier : List Event}
    (heard : Heard session.handles session.document earlier) (operation : Operation) :
    Heard (session.step limits operation).handles (session.step limits operation).document
      (earlier ++ session.events limits operation) := by
  cases operation with
  | edit change => exact heard.replay (session.changes limits (.edit change))
  | bind id name =>
      have made := heard.obtain name
      have named := Document.getElem?_obtain session.handles name name
      rw [if_pos rfl] at named
      cases free : session.document.freeIndex? id with
      | none => simpa [step, events, Document.bind?_eq, free] using made
      | some index =>
          obtain ⟨after, bound⟩ := Document.exists_bind? free (session.handles.obtain name).2
          simpa [step, events, bound, free] using
            made.bind named (Document.freeIndex?_eq_some_iff.1 free).2
              (Document.listenerAt_bind? free bound) (Document.notices_bind? bound)
  | drop name => exact heard.drop name
  | run chain source =>
      have replayed := heard.replay (session.changes limits (.run chain source))
      rwa [changes, ← Script.document_run] at replayed

/-- What listeners have heard is told by the history. -/
theorem heard_after {earlier : List Event}
    (heard : Heard session.handles session.document earlier) (operations : List Operation) :
    Heard (session.after limits operations).handles (session.after limits operations).document
      (earlier ++ session.history limits operations) := by
  induction operations generalizing session earlier with
  | nil => simpa [after, history] using heard
  | cons operation rest ih =>
      rw [history, ← List.append_assoc]
      exact ih (heard_step limits heard operation)

/-- A listener stays bound through an operation. -/
theorem listenerAt_step {index : Nat} {handle : Handle}
    (bound : session.document.listenerAt index = some handle) (operation : Operation) :
    (session.step limits operation).document.listenerAt index = some handle := by
  rcases session.document_step limits operation with changed | ⟨-, id, other, result⟩
  · rw [changed, Document.listenerAt_replay, bound]
  · obtain ⟨place, free⟩ := (Document.bind?_eq_some_iff.1 result).1
    have differ : index ≠ place := by
      rintro rfl
      simp [(Document.freeIndex?_eq_some_iff.1 free).2] at bound
    rw [Document.listenerAt_bind? free result, if_neg differ, bound]

theorem listenerAt_after {index : Nat} {handle : Handle}
    (bound : session.document.listenerAt index = some handle) (operations : List Operation) :
    (session.after limits operations).document.listenerAt index = some handle :=
  session.after_induction limits (P := (·.document.listenerAt index = some handle)) bound
    (fun _ operation kept => listenerAt_step limits kept operation) operations

/-- The text that an element shows behind an operation is the last that was set on it. -/
theorem overrideAt_step (session : Session) (operation : Operation) (index : Nat) :
    (session.step limits operation).document.overrideAt index =
      (textsOn index (session.events limits operation)).getLast?.or
        (session.document.overrideAt index) := by
  cases operation with
  | edit change => exact session.document.overrideAt_replay [change] index
  | bind id name =>
      have silent : textsOn index (session.events limits (.bind id name)) = [] := by
        rw [events]
        cases session.document.freeIndex? id <;> rfl
      rw [silent, step]
      cases result : session.document.bind? id (session.handles.obtain name).2 with
      | none => simp [result]
      | some after => simpa [result] using Document.overrideAt_bind? result index
  | drop name => rfl
  | run chain source =>
      have replayed := session.document.overrideAt_replay
        (session.changes limits (.run chain source)) index
      rwa [changes, ← Script.document_run] at replayed

/-- The text that an element shows is the last of its history. -/
theorem overrideAt_after (session : Session) (operations : List Operation) (index : Nat) :
    (session.after limits operations).document.overrideAt index =
      (textsOn index (session.history limits operations)).getLast?.or
        (session.document.overrideAt index) := by
  induction operations generalizing session with
  | nil => rfl
  | cons operation rest ih =>
      rw [history, Document.textsOn_append, List.getLast?_append, Option.or_assoc,
        ← overrideAt_step]
      exact ih (session.step limits operation)

/-- Whether a name has a handle behind an operation depends on whether it had one. -/
theorem isSome_named_step (session : Session) (operation : Operation) (name : String) :
    (session.step limits operation).handles.named[name]?.isSome =
      livesAfter name session.handles.named[name]?.isSome operation := by
  cases operation with
  | edit change => rfl
  | bind id other =>
      simp only [step, livesAfter, Document.getElem?_obtain]
      by_cases same : other = name <;> simp [same]
  | drop other =>
      by_cases same : other = name <;>
        simp [step, livesAfter, Handles.drop, Std.ExtTreeMap.getElem?_erase, same]
  | run chain source => rfl

/-- Whether a name has a handle is told by the operations alone. -/
theorem isSome_named_after (session : Session) (operations : List Operation) (name : String) :
    (session.after limits operations).handles.named[name]?.isSome =
      operations.foldl (livesAfter name) session.handles.named[name]?.isSome := by
  induction operations generalizing session with
  | nil => rfl
  | cons operation rest ih =>
      rw [List.foldl_cons, ← isSome_named_step limits]
      exact ih (session.step limits operation)

/-- After any operations, the listeners that are alive are those that were asked for and
not dropped since, and each has been sent exactly the texts that were set on its elements
since they were bound to it.  A listener can be bound to the first element with an
identity as long as it has none; from then on it keeps the one it has, be it alive or not.
An element on which a text was set shows the last one. -/
theorem listeners_after (unheard : session.Unheard) (operations : List Operation) :
    let later := session.after limits operations
    let events := session.history limits operations
    (∀ name, later.handles.named[name]?.isSome = operations.foldl (livesAfter name) false) ∧
    (∀ name handle, later.handles.named[name]? = some handle →
      Handles.texts later.document handle = (audience name events).texts) ∧
    (∀ id handle, (later.document.bind? id handle).isSome ↔
      ∃ index, later.document.indexOf? id = some index ∧
        later.document.listenerAt index = none) ∧
    (∀ index handle, later.document.listenerAt index = some handle →
      ∀ further, (later.after limits further).document.listenerAt index = some handle) ∧
    (∀ index element text, later.document.get? index = some element →
      (textsOn index events).getLast? = some text → element.text = some text) := by
  intro later events
  have begun : Heard session.handles session.document [] :=
    .nil unheard.named_eq unheard.notices_eq unheard.listenerAt_eq
  have heard : Heard later.handles later.document events := heard_after limits begun operations
  refine ⟨fun name => ?_, fun _ _ named => heard.texts_eq named, fun id handle => ?_,
    fun _ _ bound => listenerAt_after limits bound, fun index element text found last => ?_⟩
  · simpa [unheard.named_eq] using isSome_named_after limits session operations name
  · simp [Document.bind?_eq, Option.isSome_iff_exists, Document.freeIndex?_eq_some_iff]
  · have shown : later.document.overrideAt index = some text := by
      rw [overrideAt_after, last, Option.some_or]
    rw [Document.overrideAt, found, Option.bind_some] at shown
    rw [Document.Element.text, shown, Option.some_or]

/-- A document with two elements of one id, on which a script sets texts while listeners
come and go. -/
def labelOperations : List Operation :=
  [.edit (.add { kind := .tag "p", explicitId := some "out" }),
    .edit (.add { kind := .tag "p", explicitId := some "out", textOverride := some "given" }),
    .edit (.add { kind := .tag "b", explicitId := some "sum" }),
    .bind (.explicit "out") "label",
    .bind (.explicit "out") "other",
    .run [⟨0⟩] ("function show() \x7b document.getElementById('out').innerText = n \x7d " ++
      "var n = 1; show(); if (n) \x7b n = n + 1; show() \x7d"),
    .drop "label",
    .edit (.setText (.explicit "out") "unheard"),
    .bind (.explicit "out") "label",
    .bind (.explicit "sum") "label",
    .run [] "document.getElementById('sum').innerText = n + n"]

theorem listeners_after_labelOperations :
    Unheard { document := .fresh } ∧
      (after {} { document := .fresh } labelOperations).handles.named["label"]? = some ⟨2⟩ ∧
      Handles.texts (after {} { document := .fresh } labelOperations).document ⟨2⟩ = ["4"] ∧
      (after {} { document := .fresh } labelOperations).document.listenerAt 0 = some ⟨0⟩ ∧
      (∀ further, ((after {} { document := .fresh } labelOperations).after {}
        further).document.listenerAt 0 = some ⟨0⟩) ∧
      ∀ element, (after {} { document := .fresh } labelOperations).document.get? 0 = some element →
        element.text = some "unheard" := by
  have unheard : Unheard { document := .fresh } := ⟨rfl, rfl, fun _ => rfl⟩
  obtain ⟨-, told, -, kept, shown⟩ := listeners_after {} unheard labelOperations
  have facts :
      (after {} { document := .fresh } labelOperations).handles.named["label"]? = some ⟨2⟩ ∧
      (after {} { document := .fresh } labelOperations).document.listenerAt 0 = some ⟨0⟩ ∧
      (audience "label" (history {} { document := .fresh } labelOperations)).texts = ["4"] ∧
      (textsOn 0 (history {} { document := .fresh } labelOperations)).getLast? =
        some "unheard" := by
    decide +kernel
  obtain ⟨named, bound, texts, last⟩ := facts
  exact ⟨unheard, named, (told "label" ⟨2⟩ named).trans texts, bound, kept 0 ⟨0⟩ bound,
    fun element found => shown 0 element "unheard" found last⟩

end Session
end Pagelet
