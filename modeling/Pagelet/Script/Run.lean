import Pagelet.Document
import Pagelet.Script.Report
import Pagelet.Script.Statement.Reader

/-!
# Running scripts

A run carries out the statements of a script against a document and an
environment of variables and functions, which outlive the run.  A function may
call any function, itself included; what ends every run is the limit on the
calls that are active at one time.
-/

namespace Pagelet
namespace Script

open Document (ElementId)
open Style (StyleRef)

/-- The limits of a run. -/
structure Limits where
  /-- How many calls may be active at one time. -/
  callDepth : Nat := 64
  /-- How many problems one run reports; later ones are left out. -/
  problems : Nat := 24
  /-- The length in bytes beyond which a script is not run. -/
  scriptBytes : Nat := 1024 * 1024
deriving DecidableEq, Repr, Inhabited

/-- The variables and functions that outlive a run. -/
structure Environment where
  /-- The variables, by name. -/
  bindings : Variables := ∅
  /-- The bodies of the functions, by name. -/
  functions : Std.ExtTreeMap String (List Statement) compare := ∅

/-- What a run changes. -/
structure State where
  /-- The variables and functions. -/
  environment : Environment
  /-- The document. -/
  document : Document
  /-- The report so far. -/
  report : Report := {}

/-- What a run does not change. -/
structure Setting where
  /-- The limits. -/
  limits : Limits
  /-- The style references of the elements that the script writes. -/
  chain : List StyleRef

/-- The value of a snippet, if its expression can be read and evaluated. -/
def Snippet.eval (bindings : Variables) (snippet : Snippet) : Except Fault Value := do
  let expression ← snippet.expression
  expression.eval bindings

/-- Whether a sign of arithmetic occurs anywhere in the snippet. -/
def Snippet.isArithmetic (snippet : Snippet) : Bool :=
  snippet.source.toList.any ['+', '-', '*', '/'].contains

namespace State

/-- One more statement was carried out. -/
def counted (state : State) : State :=
  { state with report.statements := state.report.statements + 1 }

/-- Shows something. -/
def emit (output : Output) (state : State) : State :=
  { state with report.outputs := state.report.outputs ++ [output] }

/-- Reports a problem, if the limit leaves room for it. -/
def fail (limits : Limits) (problem : Problem) (state : State) : State :=
  if state.report.problems.length < limits.problems then
    { state with report.problems := state.report.problems ++ [problem] }
  else state

/-- Gives a variable a value. -/
def assign (name : String) (value : Value) (state : State) : State :=
  { state with
    environment.bindings := state.environment.bindings.insert name value }

/-- Gives a function a body. -/
def define (name : String) (body : List Statement) (state : State) : State :=
  { state with
    environment.functions := state.environment.functions.insert name body }

/-- Changes the document. -/
def edit (change : Document → Document) (state : State) : State :=
  { state with document := change state.document }

/-- The value of a snippet, and the state after it.  A snippet without arithmetic
that has no value is read as the name of a variable; one with arithmetic is
reported and stands for its own text. -/
def evaluate (limits : Limits) (snippet : Snippet) (state : State) : Value × State :=
  match snippet.eval state.environment.bindings with
  | .ok value => (value, state)
  | .error fault =>
      if snippet.isArithmetic then
        (.text snippet.source, state.fail limits (.evaluation snippet.source fault))
      else (state.environment.bindings.read snippet.source, state)

/-- Whether a condition holds, and the state after it.  One without a value is
reported and does not hold. -/
def decideCondition (limits : Limits) (snippet : Snippet) (state : State) : Bool × State :=
  match snippet.eval state.environment.bindings with
  | .ok value => (value.truthy, state)
  | .error fault => (false, state.fail limits (.evaluation snippet.source fault))

end State

/-- The element that a script writes. -/
def writtenText (chain : List StyleRef) (content : String) : Document.Draft :=
  { kind := .text, content := some content, chain }

mutual

/-- Carries out one statement.  What a call does is a parameter. -/
def Statement.run (setting : Setting) (call : String → State → State) :
    Statement → State → State
  | .alert message, state =>
      let (value, state) := state.evaluate setting.limits message
      (state.emit (.alert value.shown)).counted
  | .define name body, state => (state.define name body).counted
  | .call name, state => call name state
  | .conditional condition body, state =>
      let (holds, state) := state.decideCondition setting.limits condition
      (if holds then runBlock setting call body state else state).counted
  | .write content, state =>
      let (value, state) := state.evaluate setting.limits content
      (state.edit (·.add (writtenText setting.chain value.shown))).counted
  | .log line, state =>
      let (value, state) := state.evaluate setting.limits line
      (state.emit (.console value.shown)).counted
  | .declare name, state => (state.assign name default).counted
  | .assign name value, state =>
      let (value, state) := state.evaluate setting.limits value
      (state.assign name value).counted
  | .setHandler target handler, state =>
      let (id, state) := state.evaluate setting.limits target
      (state.edit (·.setHandler (.explicit id.shown) handler)).counted
  | .setText target content, state =>
      let (id, state) := state.evaluate setting.limits target
      let (value, state) := state.evaluate setting.limits content
      (state.edit (·.setText (.explicit id.shown) value.shown)).counted
  | .unknown text, state => state.fail setting.limits (.unknownStatement text)

/-- Carries out the statements of a block in order. -/
def runBlock (setting : Setting) (call : String → State → State) :
    List Statement → State → State
  | [], state => state
  | statement :: rest, state =>
      runBlock setting call rest (statement.run setting call state)

end

/-- Calls a function when `room` further calls may become active. -/
def callFunction (setting : Setting) : Nat → String → State → State
  | room, name, state =>
      match state.environment.functions[name]? with
      | none => state.fail setting.limits (.unknownFunction name)
      | some body =>
          match room with
          | 0 =>
              state.fail setting.limits (.callDepthExceeded name setting.limits.callDepth)
          | room + 1 => (runBlock setting (callFunction setting room) body state).counted

/-- Runs the statements of a program. -/
def runProgram (setting : Setting) (statements : List Statement) (state : State) : State :=
  runBlock setting (callFunction setting setting.limits.callDepth) statements state

/-- Runs a script.  A script that is too long is reported and not run. -/
def run (setting : Setting) (source : String) (environment : Environment)
    (document : Document) : State :=
  let state : State := { environment, document }
  if setting.limits.scriptBytes < source.utf8ByteSize then
    { state with report.skipped := 1 }.fail setting.limits
      (.scriptTooLarge source.utf8ByteSize setting.limits.scriptBytes)
  else runProgram setting (program source) state

end Script
end Pagelet
