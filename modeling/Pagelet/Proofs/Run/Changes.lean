import Pagelet.Proofs.Document.Changes
import Pagelet.Proofs.Run.Frame

/-!
# The changes a run makes

Every run makes a list of changes to the document, one for each writing, each text and
each handler that its statements set, in the order in which they are carried out.  The
list is read off the statements without changing any document, yet it is all there is:
the document after the run is the one before with these changes made.
-/

namespace Pagelet
namespace Script

open Document (Change)

section Changes

variable (setting : Setting) (call : String → State → State)
  (calls : String → State → List Change)

mutual

/-- The changes that one statement makes.  Those a call makes are a parameter. -/
def Statement.changes : Statement → State → List Change
  | .call name, state => calls name state
  | .conditional condition body, state =>
      let (holds, state) := state.decideCondition setting.limits condition
      if holds then blockChanges body state else []
  | .write content, state =>
      let (value, _) := state.evaluate setting.limits content
      [.add (writtenText setting.chain value.shown)]
  | .setHandler target handler, state =>
      let (id, _) := state.evaluate setting.limits target
      [.setHandler (.explicit id.shown) handler]
  | .setText target content, state =>
      let (id, state) := state.evaluate setting.limits target
      let (value, _) := state.evaluate setting.limits content
      [.setText (.explicit id.shown) value.shown]
  | .alert _, _ | .define _ _, _ | .log _, _ | .declare _, _ | .assign _ _, _
  | .unknown _, _ => []

/-- The changes that the statements of a block make, in order. -/
def blockChanges : List Statement → State → List Change
  | [], _ => []
  | statement :: rest, state =>
      statement.changes state ++ blockChanges rest (statement.run setting call state)

end

end Changes

/-- The changes that a function makes when `room` further calls may become active. -/
def functionChanges (setting : Setting) : Nat → String → State → List Change
  | room, name, state =>
      match state.environment.functions[name]? with
      | none => []
      | some body =>
          match room with
          | 0 => []
          | room + 1 =>
              blockChanges setting (callFunction setting room) (functionChanges setting room)
                body state

/-- The changes that a script makes.  One that is too long makes none. -/
def changes (setting : Setting) (source : String) (environment : Environment)
    (document : Document) : List Change :=
  if setting.limits.scriptBytes < source.utf8ByteSize then []
  else
    blockChanges setting (callFunction setting setting.limits.callDepth)
      (functionChanges setting setting.limits.callDepth) (program source)
      { environment, document }

section Replay

variable {setting : Setting} {call : String → State → State}
  {calls : String → State → List Change}

mutual

/-- What a statement does to the document is told by its changes, if this is so for calls. -/
theorem Statement.document_run
    (told : ∀ name state, (call name state).document = state.document.replay (calls name state)) :
    ∀ (statement : Statement) (state : State),
      (statement.run setting call state).document =
        state.document.replay (statement.changes setting call calls state)
  | .call name, state => told name state
  | .conditional condition body, state => by
      have body := document_runBlock told body (state.decideCondition setting.limits condition).2
      rw [State.document_decideCondition] at body
      simp only [Statement.run, Statement.changes, State.document_counted]
      split
      · exact body
      · simp
  | .write content, state => by simp [Statement.run, Statement.changes, Document.apply]
  | .setHandler target handler, state => by
      simp [Statement.run, Statement.changes, Document.apply]
  | .setText target content, state => by simp [Statement.run, Statement.changes, Document.apply]
  | .alert message, state => by simp [Statement.run, Statement.changes]
  | .define name body, state => by simp [Statement.run, Statement.changes]
  | .log line, state => by simp [Statement.run, Statement.changes]
  | .declare name, state => by simp [Statement.run, Statement.changes]
  | .assign name value, state => by simp [Statement.run, Statement.changes]
  | .unknown text, state => by simp [Statement.run, Statement.changes]

/-- What a block does to the document is told by the changes of its statements. -/
theorem document_runBlock
    (told : ∀ name state, (call name state).document = state.document.replay (calls name state)) :
    ∀ (statements : List Statement) (state : State),
      (runBlock setting call statements state).document =
        state.document.replay (blockChanges setting call calls statements state)
  | [], _ => rfl
  | statement :: rest, state => by
      rw [runBlock, blockChanges, Document.replay_append, ← Statement.document_run told,
        document_runBlock told rest]

end

/-- What a call does to the document is told by changes, by induction on the room for calls. -/
theorem document_callFunction (room : Nat) (name : String) (state : State) :
    (callFunction setting room name state).document =
      state.document.replay (functionChanges setting room name state) := by
  induction room generalizing name state with
  | zero =>
      cases defined : state.environment.functions[name]? <;>
        simp [callFunction, functionChanges, defined]
  | succ room ih =>
      cases defined : state.environment.functions[name]? with
      | none => simp [callFunction, functionChanges, defined]
      | some body =>
          simpa [callFunction, functionChanges, defined] using document_runBlock ih body state

/-- A run makes its changes and does nothing else to the document. -/
theorem document_run (source : String) (environment : Environment) (document : Document) :
    (run setting source environment document).document =
      document.replay (changes setting source environment document) := by
  unfold run changes
  split
  · simp
  · exact document_runBlock (document_callFunction _) (program source) { environment, document }

end Replay

end Script
end Pagelet
