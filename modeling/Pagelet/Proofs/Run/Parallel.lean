import Pagelet.Proofs.Statement.Room
import Pagelet.Script.Run

/-!
# Two runs side by side

The same statements are carried out from two states, each in a setting of its own.  If
every single effect leaves alike what was alike, then so does every run, however deep its
blocks and calls are nested.  What it means to be alike is left open, and so is which
statements are looked at.
-/

namespace Pagelet
namespace Script

namespace Statement

/-- The expressions of a statement itself, without those of the statements in its block. -/
def snippets : Statement → List Snippet
  | alert message => [message]
  | define _ _ => []
  | call _ => []
  | conditional condition _ => [condition]
  | write content => [content]
  | log line => [line]
  | declare _ => []
  | assign _ value => [value]
  | setHandler target _ => [target]
  | setText target content => [target, content]
  | unknown _ => []

/-- The variable that a statement sets, if it sets one. -/
def sets? : Statement → Option String
  | declare name => some name
  | assign name _ => some name
  | _ => none

end Statement

/-- Single effects keep states alike, for statements that are allowed.  A state is changed
in the first setting, and the one that is like it in the second. -/
structure Parallel (first second : Setting) (allowed : Statement → Prop)
    (alike : State → State → Prop) : Prop where
  /-- What is written has the same chain. -/
  chain : second.chain = first.chain
  /-- As many calls may be active. -/
  depth : second.limits.callDepth = first.limits.callDepth
  /-- What stands in the block of an allowed statement is allowed. -/
  block {statement inner : Statement} :
    allowed statement → inner ∈ statement.body → allowed inner
  /-- The bodies of functions are allowed. -/
  body {state other : State} {name : String} {body : List Statement} {inner : Statement} :
    alike state other → state.environment.functions[name]? = some body → inner ∈ body →
      allowed inner
  /-- The same functions are defined. -/
  functions {state other : State} :
    alike state other → other.environment.functions = state.environment.functions
  /-- Expressions have the same value, or the same fault. -/
  eval {statement : Statement} {snippet : Snippet} {state other : State} :
    allowed statement → snippet ∈ statement.snippets → alike state other →
      snippet.eval other.environment.bindings = snippet.eval state.environment.bindings
  /-- A text without a value is read as the same variable. -/
  read {statement : Statement} {snippet : Snippet} {state other : State} {fault : Fault} :
    allowed statement → snippet ∈ statement.snippets → alike state other →
      snippet.eval state.environment.bindings = .error fault →
        other.environment.bindings.read snippet.source =
          state.environment.bindings.read snippet.source
  /-- A statement is counted. -/
  counted {state other : State} : alike state other → alike state.counted other.counted
  /-- Something is shown. -/
  emit {state other : State} (output : Output) :
    alike state other → alike (state.emit output) (other.emit output)
  /-- A problem is reported, where there is room for it. -/
  fail {state other : State} (problem : Problem) :
    alike state other →
      alike (state.fail first.limits problem) (other.fail second.limits problem)
  /-- The document is changed. -/
  edit {state other : State} (change : Document → Document) :
    alike state other → alike (state.edit change) (other.edit change)
  /-- A variable is set. -/
  assign {statement : Statement} {name : String} {state other : State} (value : Value) :
    allowed statement → statement.sets? = some name → alike state other →
      alike (state.assign name value) (other.assign name value)
  /-- A function is defined. -/
  define {name : String} {body : List Statement} {state other : State} :
    allowed (.define name body) → alike state other →
      alike (state.define name body) (other.define name body)

variable {first second : Setting} {allowed : Statement → Prop} {alike : State → State → Prop}

namespace Parallel

variable {statement : Statement} {snippet : Snippet} {state other : State}

/-- An expression has the same value on both sides. -/
theorem evaluate (parallel : Parallel first second allowed alike) (ok : allowed statement)
    (part : snippet ∈ statement.snippets) (same : alike state other) :
    (other.evaluate second.limits snippet).1 = (state.evaluate first.limits snippet).1 ∧
      alike (state.evaluate first.limits snippet).2 (other.evaluate second.limits snippet).2 := by
  have evals := parallel.eval ok part same
  unfold State.evaluate
  rw [evals]
  cases found : snippet.eval state.environment.bindings with
  | ok value => exact ⟨rfl, same⟩
  | error fault =>
      dsimp only
      split
      · exact ⟨rfl, parallel.fail _ same⟩
      · exact ⟨parallel.read ok part same found, same⟩

/-- A condition is decided in the same way on both sides. -/
theorem decideCondition (parallel : Parallel first second allowed alike)
    (ok : allowed statement) (part : snippet ∈ statement.snippets) (same : alike state other) :
    (other.decideCondition second.limits snippet).1 =
        (state.decideCondition first.limits snippet).1 ∧
      alike (state.decideCondition first.limits snippet).2
        (other.decideCondition second.limits snippet).2 := by
  have evals := parallel.eval ok part same
  unfold State.decideCondition
  rw [evals]
  cases found : snippet.eval state.environment.bindings with
  | ok value => exact ⟨rfl, same⟩
  | error fault => exact ⟨rfl, parallel.fail _ same⟩

/-- An effect that takes the value of an expression keeps states alike if it does so for
every value. -/
theorem withValue (parallel : Parallel first second allowed alike) (ok : allowed statement)
    (part : snippet ∈ statement.snippets) (effect : Value → State → State)
    (effects : ∀ value {state other}, alike state other →
      alike (effect value state) (effect value other)) (same : alike state other) :
    alike
      (effect (state.evaluate first.limits snippet).1 (state.evaluate first.limits snippet).2)
      (effect (other.evaluate second.limits snippet).1
        (other.evaluate second.limits snippet).2) := by
  obtain ⟨value, after⟩ := parallel.evaluate ok part same
  rw [value]
  exact effects _ after

end Parallel

section Runs

variable {call invoke : String → State → State}

mutual

/-- A statement keeps states alike if calls do. -/
theorem Parallel.run (parallel : Parallel first second allowed alike)
    (calls : ∀ name {state other}, alike state other →
      alike (call name state) (invoke name other)) :
    ∀ (statement : Statement) {state other : State}, allowed statement → alike state other →
      alike (statement.run first call state) (statement.run second invoke other)
  | .alert message, _, _, ok, same => by
      simp only [Statement.run]
      refine parallel.withValue ok List.mem_cons_self
        (fun value state => (state.emit (.alert value.shown)).counted) ?_ same
      exact fun _ _ _ same => parallel.counted (parallel.emit _ same)
  | .define name body, _, _, ok, same => parallel.counted (parallel.define ok same)
  | .call name, _, _, _, same => calls name same
  | .conditional condition body, _, _, ok, same => by
      have part : condition ∈ (Statement.conditional condition body).snippets :=
        List.mem_cons_self
      obtain ⟨holds, after⟩ := parallel.decideCondition ok part same
      simp only [Statement.run, holds]
      apply parallel.counted
      split
      · exact Parallel.runBlock parallel calls body (fun _ => parallel.block ok) after
      · exact after
  | .write content, _, _, ok, same => by
      simp only [Statement.run, parallel.chain]
      refine parallel.withValue ok List.mem_cons_self (fun value state =>
        (state.edit (·.add (writtenText first.chain value.shown))).counted) ?_ same
      exact fun _ _ _ same => parallel.counted (parallel.edit _ same)
  | .log line, _, _, ok, same => by
      simp only [Statement.run]
      refine parallel.withValue ok List.mem_cons_self
        (fun value state => (state.emit (.console value.shown)).counted) ?_ same
      exact fun _ _ _ same => parallel.counted (parallel.emit _ same)
  | .declare name, _, _, ok, same => parallel.counted (parallel.assign _ ok rfl same)
  | .assign name value, _, _, ok, same => by
      simp only [Statement.run]
      refine parallel.withValue ok List.mem_cons_self
        (fun value state => (state.assign name value).counted) ?_ same
      exact fun value _ _ same => parallel.counted (parallel.assign value ok rfl same)
  | .setHandler target handler, _, _, ok, same => by
      simp only [Statement.run]
      refine parallel.withValue ok List.mem_cons_self (fun id state =>
        (state.edit (·.setHandler (.explicit id.shown) handler)).counted) ?_ same
      exact fun _ _ _ same => parallel.counted (parallel.edit _ same)
  | .setText target content, _, _, ok, same => by
      have part : target ∈ (Statement.setText target content).snippets := List.mem_cons_self
      obtain ⟨id, named⟩ := parallel.evaluate ok part same
      simp only [Statement.run, id]
      refine parallel.withValue ok (List.mem_cons_of_mem _ List.mem_cons_self)
        (fun value state => (state.edit (·.setText (.explicit _) value.shown)).counted) ?_ named
      exact fun _ _ _ same => parallel.counted (parallel.edit _ same)
  | .unknown text, _, _, _, same => parallel.fail _ same

/-- A block keeps states alike if calls do. -/
theorem Parallel.runBlock (parallel : Parallel first second allowed alike)
    (calls : ∀ name {state other}, alike state other →
      alike (call name state) (invoke name other)) :
    ∀ (statements : List Statement) {state other : State},
      (∀ inner ∈ statements, allowed inner) → alike state other →
      alike (Script.runBlock first call statements state)
        (Script.runBlock second invoke statements other)
  | [], _, _, _, same => same
  | statement :: rest, _, _, ok, same => by
      obtain ⟨here, others⟩ := List.forall_mem_cons.1 ok
      exact Parallel.runBlock parallel calls rest others
        (Parallel.run parallel calls statement here same)

end

/-- Calls keep states alike, however many may be active. -/
theorem Parallel.callFunction (parallel : Parallel first second allowed alike) (room : Nat)
    (name : String) {state other : State} (same : alike state other) :
    alike (Script.callFunction first room name state)
      (Script.callFunction second room name other) := by
  induction room generalizing name state other with
  | zero =>
      unfold Script.callFunction
      rw [parallel.functions same, parallel.depth]
      split <;> exact parallel.fail _ same
  | succ room ih =>
      unfold Script.callFunction
      rw [parallel.functions same]
      split
      · exact parallel.fail _ same
      · next body known =>
        have inside := parallel.runBlock (fun name _ _ => ih name) body
          (fun _ => parallel.body same known) same
        exact parallel.counted inside

/-- A program leads from states that are alike to states that are alike. -/
theorem Parallel.runProgram (parallel : Parallel first second allowed alike)
    {statements : List Statement} (ok : ∀ inner ∈ statements, allowed inner)
    {state other : State} (same : alike state other) :
    alike (Script.runProgram first statements state)
      (Script.runProgram second statements other) := by
  unfold Script.runProgram
  rw [parallel.depth]
  exact parallel.runBlock (fun name _ _ => parallel.callFunction _ name) statements ok same

end Runs

end Script
end Pagelet
