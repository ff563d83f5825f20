import Pagelet.Document.Handles
import Pagelet.Proofs.Run.Changes

/-!
# Sessions

In a session a caller changes a document, runs scripts against it, and binds listeners,
which it keeps by name and drops when it likes.  All this happens in any order, and the
variables and functions of one script are there for the next.
-/

namespace Pagelet

open Document (Change ElementId)
open Style (StyleRef)

/-- A document in use. -/
structure Session where
  /-- The document. -/
  document : Document
  /-- The variables and functions of the scripts. -/
  environment : Script.Environment := {}
  /-- The listeners that are alive. -/
  handles : Document.Handles := {}

namespace Session

/-- What a caller may do. -/
inductive Operation
  /-- The document is changed. -/
  | edit (change : Change)
  /-- The listener of a name is bound to the first element with an identity.  It is made
  if there is none, even where binding fails. -/
  | bind (id : ElementId) (name : String)
  /-- The listener of a name is dropped. -/
  | drop (name : String)
  /-- A script is run. -/
  | run (chain : List StyleRef) (source : String)

/-- The session after an operation. -/
def step (limits : Script.Limits) (session : Session) : Operation → Session
  | .edit change => { session with document := session.document.apply change }
  | .bind id name =>
      let (handles, handle) := session.handles.obtain name
      { session with
        handles
        document := (session.document.bind? id handle).getD session.document }
  | .drop name => { session with handles := (session.handles.drop name).1 }
  | .run chain source =>
      let state := Script.run ⟨limits, chain⟩ source session.environment session.document
      { session with document := state.document, environment := state.environment }

/-- The session after several operations. -/
def after (limits : Script.Limits) (session : Session) (operations : List Operation) : Session :=
  operations.foldl (step limits) session

/-- The changes that an operation makes to the document, binding aside. -/
def changes (limits : Script.Limits) (session : Session) : Operation → List Change
  | .edit change => [change]
  | .bind .. | .drop _ => []
  | .run chain source =>
      Script.changes ⟨limits, chain⟩ source session.environment session.document

/-- The changes that several operations make. -/
def changesOf (limits : Script.Limits) (session : Session) : List Operation → List Change
  | [] => []
  | operation :: rest =>
      session.changes limits operation ++ (session.step limits operation).changesOf limits rest

variable (limits : Script.Limits) (session : Session)

/-- An operation makes its changes to the document or binds a listener. -/
theorem document_step (operation : Operation) :
    (session.step limits operation).document =
        session.document.replay (session.changes limits operation) ∨
      session.changes limits operation = [] ∧ ∃ id handle,
        session.document.bind? id handle = some (session.step limits operation).document := by
  cases operation with
  | edit change => exact .inl rfl
  | bind id name =>
      cases bound : session.document.bind? id (session.handles.obtain name).2 with
      | none => exact .inl (by simp [step, changes, bound])
      | some after => exact .inr ⟨rfl, id, (session.handles.obtain name).2, by simp [step, bound]⟩
  | drop name => exact .inl rfl
  | run chain source => exact .inl (Script.document_run ..)

/-- What holds of a session and stays true with every operation holds after several. -/
theorem after_induction {P : Session → Prop} (start : P session)
    (kept : ∀ session operation, P session → P (session.step limits operation))
    (operations : List Operation) : P (session.after limits operations) := by
  induction operations generalizing session with
  | nil => exact start
  | cons operation rest ih => exact ih _ (kept session operation start)

end Session
end Pagelet
