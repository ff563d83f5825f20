import Pagelet.Proofs.Document.Frame
import Pagelet.Script.Run

/-!
# What a run does to the document

A run changes the document by single changes of three kinds, however deep its blocks
and calls are nested.  What holds of each of them, and of one after the other, holds of
every run.
-/

namespace Pagelet
namespace Script

open Document (ElementId Framed)
open Style (StyleRef)

/-- Scripts in the chain change documents along the relation. -/
structure Admits (chain : List StyleRef) (related : Document → Document → Prop) : Prop where
  /-- Nothing need be changed. -/
  refl : ∀ document, related document document
  /-- Changes may follow on each other. -/
  trans : ∀ {first second third}, related first second → related second third →
    related first third
  /-- Text may be written. -/
  write : ∀ document content, related document (document.add (writtenText chain content))
  /-- The handler of a named element may be set. -/
  setHandler : ∀ document id handler,
    related document (document.setHandler (.explicit id) handler)
  /-- The text of a named element may be set. -/
  setText : ∀ (document : Document) id text,
    related document (document.setText (.explicit id) text)

namespace State

variable (limits : Limits) (state : State)

@[simp]
theorem document_counted : state.counted.document = state.document := rfl

@[simp]
theorem document_emit (output : Output) : (state.emit output).document = state.document := rfl

@[simp]
theorem document_fail (problem : Problem) :
    (state.fail limits problem).document = state.document := by
  unfold fail
  split <;> rfl

@[simp]
theorem document_assign (name : String) (value : Value) :
    (state.assign name value).document = state.document := rfl

@[simp]
theorem document_define (name : String) (body : List Statement) :
    (state.define name body).document = state.document := rfl

@[simp]
theorem document_edit (change : Document → Document) :
    (state.edit change).document = change state.document := rfl

@[simp]
theorem document_evaluate (snippet : Snippet) :
    (state.evaluate limits snippet).2.document = state.document := by
  unfold evaluate
  split
  · rfl
  · split <;> simp

@[simp]
theorem document_decideCondition (snippet : Snippet) :
    (state.decideCondition limits snippet).2.document = state.document := by
  unfold decideCondition
  split <;> simp

end State

section Runs

variable {setting : Setting} {related : Document → Document → Prop}
  {call : String → State → State}

mutual

/-- A statement changes the document along the relation if calls do. -/
theorem Admits.statement (admits : Admits setting.chain related)
    (calls : ∀ name state, related state.document (call name state).document) :
    ∀ (statement : Statement) (state : State),
      related state.document (statement.run setting call state).document
  | .alert message, state => by simpa [Statement.run] using admits.refl _
  | .define name body, state => by simpa [Statement.run] using admits.refl _
  | .call name, state => by simpa [Statement.run] using calls name state
  | .conditional condition body, state => by
      have body := Admits.block admits calls body (state.decideCondition setting.limits condition).2
      rw [State.document_decideCondition] at body
      simp only [Statement.run, State.document_counted]
      split
      · exact body
      · simpa using admits.refl _
  | .write content, state => by simpa [Statement.run] using admits.write _ _
  | .log line, state => by simpa [Statement.run] using admits.refl _
  | .declare name, state => by simpa [Statement.run] using admits.refl _
  | .assign name value, state => by simpa [Statement.run] using admits.refl _
  | .setHandler target handler, state => by
      simpa [Statement.run] using admits.setHandler _ _ _
  | .setText target content, state => by simpa [Statement.run] using admits.setText _ _ _
  | .unknown text, state => by simpa [Statement.run] using admits.refl _

/-- A block changes the document along the relation if calls do. -/
theorem Admits.block (admits : Admits setting.chain related)
    (calls : ∀ name state, related state.document (call name state).document) :
    ∀ (statements : List Statement) (state : State),
      related state.document (runBlock setting call statements state).document
  | [], _ => admits.refl _
  | statement :: rest, state =>
      admits.trans (Admits.statement admits calls statement state)
        (Admits.block admits calls rest (statement.run setting call state))

end

/-- Calls change the document along the relation, however many may be active. -/
theorem Admits.function (admits : Admits setting.chain related) (room : Nat) (name : String)
    (state : State) :
    related state.document (callFunction setting room name state).document := by
  induction room generalizing name state with
  | zero =>
      unfold callFunction
      split <;> simpa using admits.refl _
  | succ room ih =>
      unfold callFunction
      split
      · simpa using admits.refl _
      · exact admits.block ih _ state

/-- A run changes the document along every relation that its single changes keep. -/
theorem Admits.run (admits : Admits setting.chain related) (source : String)
    (environment : Environment) (document : Document) :
    related document (run setting source environment document).document := by
  unfold Script.run
  split
  · simpa using admits.refl document
  · exact admits.block (admits.function _) (program source) { environment, document }

end Runs

/-- The frame of a chain admits whatever a script may do to the document. -/
theorem admits_framed (chain : List StyleRef) : Admits chain (Framed chain) where
  refl := .refl chain
  trans := .trans
  write := .write chain
  setHandler := .setHandler chain
  setText := .setText chain

/-- A run leaves every element where it was and as the markup has it.  It may set a text
or a handler on an element that is the first with its own id, and every element it adds
is text of its own. -/
theorem run_framed (setting : Setting) (source : String) (environment : Environment)
    (document : Document) :
    Framed setting.chain document (run setting source environment document).document :=
  (admits_framed setting.chain).run source environment document

end Script
end Pagelet
