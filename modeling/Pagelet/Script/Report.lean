import Pagelet.Script.Lexeme

/-!
# Reports

What a run of a script tells its caller: how many statements were carried out,
what was shown, and what went wrong.  Nothing that goes wrong ends a run.
-/

namespace Pagelet
namespace Script

/-- Why a statement had no effect, or not the one it was written for. -/
inductive Problem
  /-- A statement of no known form. -/
  | unknownStatement (text : String)
  /-- A call of a function that is not defined. -/
  | unknownFunction (name : String)
  /-- An expression without a value. -/
  | evaluation (expression : String) (reason : Fault)
  /-- A call with as many calls active as are allowed. -/
  | callDepthExceeded (name : String) (limit : Nat)
  /-- A script that is longer than allowed. -/
  | scriptTooLarge (size limit : Nat)
deriving DecidableEq, Repr

/-- The wording of a problem. -/
def Problem.message : Problem → String
  | unknownStatement text => "unknown statement `" ++ text ++ "`"
  | unknownFunction name => "call to undefined function `" ++ name ++ "`"
  | evaluation expression reason =>
      "cannot evaluate `" ++ expression ++ "`: " ++ reason.message
  | callDepthExceeded name limit =>
      "call to `" ++ name ++ "` exceeds depth limit " ++ toString limit
  | scriptTooLarge size limit =>
      "script of " ++ toString size ++ " bytes exceeds limit " ++ toString limit ++ "; skipped"

/-- What a script shows. -/
inductive Output
  /-- A line on the console. -/
  | console (line : String)
  /-- A message in a window of its own. -/
  | alert (message : String)
deriving DecidableEq, Repr

/-- The outcome of one or several runs. -/
structure Report where
  /-- How many statements were carried out. -/
  statements : Nat := 0
  /-- How many scripts were not run at all. -/
  skipped : Nat := 0
  /-- What was shown, in order. -/
  outputs : List Output := []
  /-- What went wrong, in order. -/
  problems : List Problem := []
deriving DecidableEq, Repr, Inhabited

namespace Report

/-- The report of two runs, the second after the first. -/
def append (first second : Report) : Report where
  statements := first.statements + second.statements
  skipped := first.skipped + second.skipped
  outputs := first.outputs ++ second.outputs
  problems := first.problems ++ second.problems

/-- The lines on the console. -/
def consoleLines (report : Report) : List String :=
  report.outputs.filterMap fun
    | .console line => some line
    | .alert _ => none

/-- The messages in windows. -/
def alerts (report : Report) : List String :=
  report.outputs.filterMap fun
    | .console _ => none
    | .alert message => some message

/-- An output as a line. -/
def outputLine : Output → String
  | .console line => "[console] " ++ line
  | .alert message => "[alert] " ++ message

/-- The report as lines, what went wrong last. -/
def lines (report : Report) : List String :=
  report.outputs.map outputLine ++
    report.problems.map fun problem => "[error] " ++ problem.message

@[simp]
theorem append_empty (report : Report) : report.append {} = report := by
  simp [append]

end Report

end Script
end Pagelet
