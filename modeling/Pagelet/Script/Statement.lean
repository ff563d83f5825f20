import Pagelet.Script.Expr.Reader

/-!
# Statements

A script is a list of statements.  Expressions inside them are kept as their
source text, because a text that cannot be read still has a meaning when the
statement runs.
-/

namespace Pagelet
namespace Script

/-- The source text of an expression, without blanks at its ends. -/
structure Snippet where
  /-- The text as written. -/
  source : String
deriving DecidableEq, Repr

/-- The snippet that a piece of script holds. -/
def Snippet.ofChars (cs : List Char) : Snippet :=
  ⟨String.ofList (Text.trim cs)⟩

/-- The expression that the snippet writes. -/
def Snippet.expression (snippet : Snippet) : Except Fault Expr :=
  Expr.parse snippet.source

/-- One statement of a script. -/
inductive Statement
  /-- `alert(message)` -/
  | alert (message : Snippet)
  /-- `function name() { body }` -/
  | define (name : String) (body : List Statement)
  /-- `name()` -/
  | call (name : String)
  /-- `if (condition) { body }` -/
  | conditional (condition : Snippet) (body : List Statement)
  /-- `document.write(content)` -/
  | write (content : Snippet)
  /-- `console.log(line)` -/
  | log (line : Snippet)
  /-- `var name`, which gives the variable the empty text. -/
  | declare (name : String)
  /-- `name = value`, or the same behind `var`, `let` or `const`. -/
  | assign (name : String) (value : Snippet)
  /-- `document.getElementById(target).onclick = { handler }` -/
  | setHandler (target : Snippet) (handler : String)
  /-- `document.getElementById(target).innerText = content` -/
  | setText (target content : Snippet)
  /-- A text that has none of the other forms. -/
  | unknown (text : String)
deriving Repr

end Script
end Pagelet
