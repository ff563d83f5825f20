import Pagelet.Script.Statement
import Pagelet.Script.Statement.Splitting
import Pagelet.Text.Front

/-!
# Reading statements

Each form of statement has a reader of its own, which answers `none` for a text
of another form.  `Statement.read` tries them in a fixed order.  Blocks are read
with the statement that holds them; `room` bounds how deep they nest.
-/

namespace Pagelet
namespace Script
namespace Statement

open Text (trim trimStart isBlank)

/-- The words that are neither called nor assigned to. -/
def keywords : List String :=
  ["if", "else", "function", "var", "let", "const", "return", "while", "for"]

/-- What stands behind a word at the front of the text. -/
def behindWord? (word : String) (cs : List Char) : Option (List Char) :=
  Text.behind? word.toList cs

/-- What stands behind one character, with the blanks before that character. -/
def behindChar? (c : Char) (cs : List Char) : Option (List Char) :=
  Text.behind? [c] (trimStart cs)

/-- The inner text of a block that spans the whole text. -/
def block? (cs : List Char) : Option (List Char) := do
  let (body, behind) ← enclosed? '{' '}' cs
  if (trim behind).isEmpty then some body else none

/-- The text after the `=` of an assignment, unless it is empty or a comparison. -/
def assigned? (cs : List Char) : Option (List Char) :=
  match cs with
  | '=' :: '=' :: _ => none
  | '=' :: rest =>
      let value := trim rest
      if value.isEmpty then none else some value
  | _ => none

/-- The block behind an empty list of parameters. -/
def parameterless? (cs : List Char) : Option (List Char) := do
  let inside ← behindChar? '(' cs
  let behind ← behindChar? ')' inside
  block? (trimStart behind)

/-- The argument of a call that spans the whole text. -/
def argument? (callee : String) (cs : List Char) : Option Snippet := do
  let rest ← behindWord? callee cs
  let (argument, behind) ← enclosed? '(' ')' (trimStart rest)
  if (trim behind).isEmpty then some (Snippet.ofChars argument) else none

/-- `function name() { body }` -/
def definition? (block : List Char → List Statement) (cs : List Char) :
    Option Statement := do
  let rest ← behindWord? "function" cs
  if !Text.startsBlank rest then none
  let (name, rest) ← splitName? (trimStart rest)
  let body ← parameterless? rest
  some (define (String.ofList name) (block body))

/-- `name()` -/
def invocation? (cs : List Char) : Option Statement := do
  let (name, rest) ← splitName? cs
  let inside ← behindChar? '(' rest
  if trim inside = [')'] ∧ String.ofList name ∉ keywords then
    some (call (String.ofList name))
  else none

/-- `if (condition) { body }`, or a single statement in place of the block, or
nothing. -/
def choice? (block : List Char → List Statement) (single : List Char → Statement)
    (cs : List Char) : Option Statement := do
  let rest ← behindWord? "if" cs
  if !(Text.startsBlank rest || rest.head? == some '(') then none
  let (condition, behind) ← enclosed? '(' ')' (trimStart rest)
  let body ← match trimStart behind with
    | [] => some []
    | '{' :: inside => (block? ('{' :: inside)).map block
    | text => some [single text]
  some (conditional (Snippet.ofChars condition) body)

/-- The text behind `var`, `let` or `const`. -/
def declared? (cs : List Char) : Option (List Char) :=
  behindWord? "var" cs <|> behindWord? "let" cs <|> behindWord? "const" cs

/-- `var name` or `var name = value`, also with `let` or `const`. -/
def declaration? (cs : List Char) : Option Statement := do
  let rest ← declared? cs
  if !Text.startsBlank rest then none
  let (name, rest) ← splitName? (trimStart rest)
  match trimStart rest with
  | [] => some (declare (String.ofList name))
  | text => do
      let value ← assigned? text
      some (assign (String.ofList name) (Snippet.ofChars value))

/-- The text of a click handler: a block, a function without parameters, or a
string literal. -/
def handler? (cs : List Char) : Option String :=
  match cs with
  | '{' :: _ => (block? cs).map fun body => String.ofList (trim body)
  | _ =>
      match behindWord? "function" cs with
      | some rest => (parameterless? rest).map fun body => String.ofList (trim body)
      | none =>
          match (Snippet.ofChars cs).expression with
          | .ok (.literal (.text content)) => some content
          | _ => none

/-- An assignment to a property of an element that is named by its id. -/
def mutation? (cs : List Char) : Option Statement := do
  let rest ← behindWord? "document.getElementById" cs
  let (target, behind) ← enclosed? '(' ')' (trimStart rest)
  let target := Snippet.ofChars target
  let member ← behindChar? '.' behind
  let (property, rest) ← splitName? (trimStart member)
  let value ← assigned? (trimStart rest)
  match String.ofList property with
  | "onclick" => (handler? value).map (setHandler target)
  | "innerText" => some (setText target (Snippet.ofChars value))
  | "textContent" => some (setText target (Snippet.ofChars value))
  | _ => none

/-- `name = value` -/
def assignment? (cs : List Char) : Option Statement := do
  let (name, rest) ← splitName? cs
  if String.ofList name ∈ keywords then none
  let value ← assigned? (trimStart rest)
  some (assign (String.ofList name) (Snippet.ofChars value))

/-- The statement that a text writes.  Without room for it, the text is kept as
it is. -/
def read : Nat → List Char → Statement
  | 0, text => unknown (String.ofList (trim text))
  | room + 1, text =>
      let text := trim text
      let block (body : List Char) := (splitStatements body).map (read room)
      let form :=
        (argument? "alert" text).map alert <|>
        definition? block text <|>
        invocation? text <|>
        choice? block (read room) text <|>
        (argument? "document.write" text).map write <|>
        (argument? "console.log" text).map log <|>
        declaration? text <|>
        mutation? text <|>
        assignment? text
      form.getD (unknown (String.ofList text))

end Statement

/-- How many blocks may stand around a statement that is read. -/
def maxBlockDepth : Nat := 256

/-- The statements of a script; those in too many blocks are kept as text. -/
def program (source : String) : List Statement :=
  (splitStatements source.toList).map (Statement.read (maxBlockDepth + 1))

end Script
end Pagelet
