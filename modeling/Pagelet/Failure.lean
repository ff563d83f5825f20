import Pagelet.Document.Element

/-!
# Failures

Reading a page never fails.  What can fail is what is asked of a page from
outside: a click on something that is not there, or a command line.
-/

namespace Pagelet

open Document (ElementId)

/-- Why a request could not be met. -/
inductive Failure
  /-- A click on an element that the page does not have. -/
  | unknownElement (id : ElementId)
  /-- A click option without its element. -/
  | missingClickId
  /-- An argument that has no meaning where it stands. -/
  | unexpectedArgument (argument : String)
  /-- A command line without a file. -/
  | missingPath
  /-- A file that cannot be read, with the system's reason. -/
  | readFailed (path reason : String)
deriving DecidableEq, Repr

namespace Failure

/-- How the program is called. -/
def usage : String := "usage: minipage <file.html> [--click <id>]..."

/-- The name of the failure for programs. -/
def code : Failure → String
  | unknownElement _ => "page.click.unknown_element"
  | missingClickId => "minipage.args.missing_click_id"
  | unexpectedArgument _ => "minipage.args.unexpected"
  | missingPath => "minipage.args.missing_path"
  | readFailed _ _ => "minipage.io.read_failed"

/-- The explanation of the failure for people. -/
def explanation : Failure → String
  | unknownElement id => "no element with identity " ++ id.shown
  | missingClickId => "missing element id after --click"
  | unexpectedArgument argument => "unexpected argument `" ++ argument ++ "` (" ++ usage ++ ")"
  | missingPath => usage
  | readFailed path reason => path ++ ": " ++ reason

/-- The code and the explanation. -/
def message (failure : Failure) : String :=
  failure.code ++ ": " ++ failure.explanation

end Failure

end Pagelet
