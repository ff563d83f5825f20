import Pagelet.Proofs.Statement.Readable
import Pagelet.Script.Statement.Reader

/-!
# Printed statements

Every statement that a script can hold has a text of one fixed form.  A block is
written between braces, each statement in it with a semicolon and a line end
behind; the text of a click handler is written as a string literal.
-/

namespace Pagelet
namespace Script

/-- How a character is written between double quotes. -/
def escape (c : Char) : List Char :=
  if c = '\\' ∨ c = '"' then ['\\', c]
  else if c = '\n' then ['\\', 'n']
  else if c = '\t' then ['\\', 't']
  else [c]

/-- A text between double quotes. -/
def literal (cs : List Char) : List Char :=
  '"' :: cs.flatMap escape ++ ['"']

namespace Statement

/-- `callee(argument)` -/
def callText (callee : String) (argument : List Char) : List Char :=
  callee.toList ++ Bracket.paren.around argument

/-- What stands before the block in `function name() { body }`. -/
def definitionHead (name : String) : List Char :=
  "function".toList ++ ' ' :: callText name [] ++ [' ']

/-- What stands before the block in `if (condition) { body }`. -/
def conditionalHead (condition : Snippet) : List Char :=
  "if".toList ++ ' ' :: Bracket.paren.around condition.chars ++ [' ']

/-- `var name` -/
def declarationText (name : String) : List Char :=
  "var".toList ++ ' ' :: name.toList

/-- What stands before the value in `var name = value`. -/
def assignmentHead (name : String) : List Char :=
  declarationText name ++ [' ', '=', ' ']

/-- What stands before the value in `document.getElementById(target).property = value`. -/
def mutationHead (target : Snippet) (property : String) : List Char :=
  callText "document.getElementById" target.chars ++ '.' :: property.toList ++ [' ', '=', ' ']

mutual

/-- The text of a statement. -/
def print : Statement → List Char
  | alert message => callText "alert" message.chars
  | define name body =>
      definitionHead name ++ Bracket.brace.around (' ' :: printBlock body ++ [' '])
  | call name => callText name []
  | conditional condition body =>
      conditionalHead condition ++ Bracket.brace.around (' ' :: printBlock body ++ [' '])
  | write content => callText "document.write" content.chars
  | log line => callText "console.log" line.chars
  | declare name => declarationText name
  | assign name value => assignmentHead name ++ value.chars
  | setHandler target handler => mutationHead target "onclick" ++ literal handler.toList
  | setText target content => mutationHead target "innerText" ++ content.chars
  | unknown text => text.toList

/-- The text of a block of statements. -/
def printBlock : List Statement → List Char
  | [] => []
  | statement :: more => statement.print ++ ';' :: '\n' :: printBlock more

end

mutual

/-- In how many blocks of the statement its innermost statement stands. -/
def nesting : Statement → Nat
  | define _ body => blockNesting body
  | conditional _ body => blockNesting body
  | _ => 0

/-- The nesting of a statement whose block holds the statements. -/
def blockNesting : List Statement → Nat
  | [] => 0
  | statement :: more => max (statement.nesting + 1) (blockNesting more)

end

theorem blockNesting_le_iff {statements : List Statement} {bound : Nat} :
    blockNesting statements ≤ bound ↔ ∀ statement ∈ statements, statement.nesting < bound := by
  induction statements with
  | nil => simp [blockNesting]
  | cons statement more ih =>
      rw [blockNesting, Nat.max_le, ih, List.forall_mem_cons]
      exact Iff.rfl

/-- A letter, `_` or `$`, and any letters, digits, `_` and `$` behind it. -/
structure IsName (name : String) : Prop where
  /-- The first character begins a name. -/
  starts : ∃ first ∈ name.toList.head?, isNameStart first = true
  /-- Every character may stand in a name. -/
  continues : ∀ c ∈ name.toList, isNameChar c = true

/-- The statement is made of names and readable expressions, in a way that tells its
form from the others. -/
inductive Written : Statement → Prop
  | alert {message : Snippet} (readable : message.Readable) : Written (alert message)
  | define {name : String} {body : List Statement} (isName : IsName name)
      (written : ∀ statement ∈ body, Written statement) : Written (define name body)
  | call {name : String} (isName : IsName name) (notKeyword : name ∉ keywords)
      (notAlert : name ≠ "alert") : Written (call name)
  | conditional {condition : Snippet} {body : List Statement} (readable : condition.Readable)
      (written : ∀ statement ∈ body, Written statement) : Written (conditional condition body)
  | write {content : Snippet} (readable : content.Readable) : Written (write content)
  | log {line : Snippet} (readable : line.Readable) : Written (log line)
  | declare {name : String} (isName : IsName name) : Written (declare name)
  | assign {name : String} {value : Snippet} (isName : IsName name) (readable : value.Readable)
      (encloses : EnclosesLineEnds {} value.chars) : Written (assign name value)
  | setHandler {target : Snippet} (readable : target.Readable) (handler : String) :
      Written (setHandler target handler)
  | setText {target content : Snippet} (targetReadable : target.Readable)
      (contentReadable : content.Readable) (encloses : EnclosesLineEnds {} content.chars) :
      Written (setText target content)

end Statement

/-- The text of a script. -/
def printProgram (statements : List Statement) : String :=
  String.ofList (Statement.printBlock statements)

end Script
end Pagelet
