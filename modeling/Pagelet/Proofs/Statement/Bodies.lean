import Pagelet.Proofs.Statement.RoundTrip

/-!
# Bodies in blocks

A script that ends outside strings and brackets and closes no brace of its
surroundings can be the body of a block.  It then has the statements that it has as
a script, whichever block it stands in, though it is split within brackets, its
comments are dropped with those of the script around it, and a handler is read
later, from its text.
-/

namespace Pagelet
namespace Script

open Text (Quotation trim)

variable {front body cs : List Char}

/-- A body on lines of its own. -/
def onLines (body : List Char) : List Char :=
  '\n' :: body ++ ['\n']

/-- A script that is a block with the body in it, behind what stands before the
block. -/
def blockText (head : List Char) (body : String) : String :=
  String.ofList (head ++ Bracket.brace.around (onLines body.toList))

/-- Closed brackets stay closed on lines of their own. -/
theorem closed_onLines (closed : Closed .brace cs) : Closed .brace (onLines cs) := by
  have lineEnd : Balanced ['\n'] := .of_isInert (List.all_eq_true.1 rfl)
  exact ((lineEnd .brace).append closed).append (lineEnd .brace)

theorem uncommented_onLines (uncommented : Uncommented .outside cs) (closed : Closed .brace cs) :
    Uncommented .outside (onLines cs) := by
  refine ⟨nofun, uncommented.append ?_ nofun⟩
  rw [closed.after_quotation]
  exact ⟨nofun, trivial⟩

/-- The line ends around a body take no part in it. -/
theorem splitStatements_onLines (uncommented : Uncommented .outside cs)
    (closed : Closed .brace cs) : splitStatements (onLines cs) = solid (pieces {} cs) := by
  have blank : Text.IsBlankText ['\n'] := by simp [Text.IsBlankText, Text.isBlank]
  rw [splitStatements_eq, (uncommented_onLines uncommented closed).dropComments_eq]
  exact solid_pieces_blank_append blank blank _

/-- A body that is trimmed and read later still has its statements. -/
theorem splitStatements_trim_onLines (uncommented : Uncommented .outside cs)
    (closed : Closed .brace cs) :
    splitStatements (trim (onLines cs)) = solid (pieces {} cs) := by
  have lines := uncommented_onLines uncommented closed
  rw [splitStatements_eq, lines.trim.dropComments_eq, solid_pieces_trim,
    ← splitStatements_onLines uncommented closed, splitStatements_eq, lines.dropComments_eq]

/-- Comments are dropped from a block in its place as they are from its body. -/
theorem dropComments_block (unbroken : Unbroken front)
    (closed : Closed .brace (dropComments (.code .outside) body)) :
    dropComments (.code .outside) (front ++ Bracket.brace.around (onLines body)) =
      front ++ Bracket.brace.around (onLines (dropComments (.code .outside) body)) := by
  have apart : (Bracket.brace.around (onLines body)).head? ≠ some '/' := by
    simp [Bracket.around, Bracket.opening]
  -- a comment on the last line of the body ends there and leaves the brace alone
  have inner := dropComments_lineEnd (.code .outside) body ['}'] closed.after_quotation
  have whole : Bracket.brace.around (onLines body) = '{' :: '\n' :: (body ++ '\n' :: ['}']) := by
    simp [Bracket.around, onLines, Bracket.opening, Bracket.closing]
  have opened (rest : List Char) : dropComments (.code .outside) ('{' :: '\n' :: rest) =
      '{' :: '\n' :: dropComments (.code .outside) rest := rfl
  rw [dropComments_append unbroken.uncommented apart, unbroken.balanced.after_quotation, whole,
    opened, inner]
  simp [Bracket.around, onLines, Bracket.opening, Bracket.closing, dropComments]

/-- A script that is one block has one statement. -/
theorem splitStatements_block (unbroken : Unbroken front)
    (closed : Closed .brace (dropComments (.code .outside) body))
    (trimmed : ∀ cs, trim (front ++ Bracket.brace.around cs) = front ++ Bracket.brace.around cs) :
    splitStatements (front ++ Bracket.brace.around (onLines body)) =
      [front ++ Bracket.brace.around (onLines (dropComments (.code .outside) body))] := by
  have cut := pieces_block unbroken.uncut (unbroken.balanced.after rfl) (closed_onLines closed) []
  rw [List.append_nil] at cut
  rw [splitStatements_eq, dropComments_block unbroken closed, cut, solid_cons,
    solid_of_trimmed (trimmed _) (by simp [Bracket.around])]
  rfl

namespace Statement

/-- What stands before the block in `function () { body }`. -/
def handlerHead : List Char :=
  "function".toList ++ ' ' :: Bracket.paren.around [] ++ [' ']

theorem unbroken_handlerHead : Unbroken handlerHead := by
  have keyword : Unbroken ("function".toList ++ [' ']) := .word rfl
  have space : Unbroken [' '] := .word rfl
  have whole := (keyword.append unbroken_nil_around).append space
  rw [List.append_assoc "function".toList] at whole
  exact whole

theorem trim_handlerHead (cs : List Char) :
    trim (handlerHead ++ Bracket.brace.around cs) = handlerHead ++ Bracket.brace.around cs :=
  Text.trim_eq_self rfl (Bracket.brace.endsBlank_around _ _)

/-- A handler in braces is read to what they enclose. -/
theorem handler?_handlerHead (closed : Closed .brace cs) :
    handler? (handlerHead ++ Bracket.brace.around cs) = some (String.ofList (trim cs)) := by
  have whole : handlerHead ++ Bracket.brace.around cs =
      "function".toList ++ ' ' :: (Bracket.paren.around [] ++ ' ' :: Bracket.brace.around cs) := by
    unfold handlerHead
    simp only [List.append_assoc, List.cons_append, List.nil_append]
  rw [whole, handler?_function closed]

/-- A value that is read as a handler sets the handler of its target. -/
theorem read_setHandler {target : Snippet} (readable : target.Readable) (trimmed : trim cs = cs)
    (notEmpty : cs ≠ []) {handler : String} (read : handler? cs = some handler) (room : Nat) :
    Statement.read (room + 1) (mutationHead target "onclick" ++ cs) =
      setHandler target handler := by
  have mutation := mutation?_onclick target (readable.balanced .paren) trimmed notEmpty
  rw [read, readable.ofChars_eq] at mutation
  exact read_mutation _ _ trimmed notEmpty mutation room

end Statement

open Statement

/-- A script that is one block is read as the statement with the plain body. -/
theorem program_blockText {body : String} (unbroken : Unbroken front)
    (closed : Closed .brace (dropComments (.code .outside) body.toList))
    (trimmed : ∀ cs, trim (front ++ Bracket.brace.around cs) = front ++ Bracket.brace.around cs) :
    program (blockText front body) = [read (maxBlockDepth + 1)
      (front ++ Bracket.brace.around (onLines (dropComments (.code .outside) body.toList)))] := by
  rw [program, blockText, String.toList_ofList, splitStatements_block unbroken closed trimmed]
  rfl

/-- A body has the same statements in a definition, in a conditional and in either
form of click handler as it has as a script. -/
theorem program_of_body {body name : String} {condition target : Snippet}
    (closed : Closed .brace (dropComments (.code .outside) body.toList))
    (nested : ∀ statement ∈ program body, statement.nesting < maxBlockDepth)
    (isName : IsName name) (conditionReadable : condition.Readable)
    (targetReadable : target.Readable) :
    program (blockText (definitionHead name) body) = [define name (program body)] ∧
      program (blockText (conditionalHead condition) body) =
        [conditional condition (program body)] ∧
      ∃ handler, program handler = program body ∧
        program (blockText (mutationHead target "onclick") body) =
          [setHandler target handler] ∧
        program (blockText (mutationHead target "onclick" ++ handlerHead) body) =
          [setHandler target handler] := by
  have lines := closed_onLines closed
  have uncommented : Uncommented .outside (dropComments (.code .outside) body.toList) :=
    uncommented_dropComments (.code .outside) body.toList
  have statements : splitStatements (onLines (dropComments (.code .outside) body.toList)) =
      splitStatements body.toList :=
    splitStatements_onLines uncommented closed
  -- one block further in there is still room for the body
  have inner : (splitStatements body.toList).map (read maxBlockDepth) = program body := by
    apply List.map_congr_left
    intro text member
    apply read_eq_of_nesting_lt
    exact nested _ (List.mem_map_of_mem member)
  have head : Unbroken (mutationHead target "onclick") :=
    unbroken_mutationHead targetReadable isName_onclick
  refine ⟨?_, ?_, String.ofList (trim (onLines (dropComments (.code .outside) body.toList))),
    ?_, ?_, ?_⟩
  · rw [program_blockText (unbroken_definitionHead isName) closed (trim_definition name),
      read_define isName lines, statements, inner]
  · rw [program_blockText (unbroken_conditionalHead conditionReadable) closed
      (trim_conditional condition), read_conditional _ (conditionReadable.balanced .paren) lines,
      statements, inner, conditionReadable.ofChars_eq]
  · rw [program, String.toList_ofList, splitStatements_trim_onLines uncommented closed]
    rfl
  · have trimmed (cs : List Char) : trim (Bracket.brace.around cs) = Bracket.brace.around cs :=
      Text.trim_eq_self rfl (Bracket.brace.endsBlank_around [] cs)
    rw [program_blockText head closed fun cs => trim_append_value rfl (trimmed cs)
      (List.cons_ne_nil _ _)]
    rw [read_setHandler targetReadable (trimmed _) (List.cons_ne_nil _ _) (handler?_block lines)]
  · rw [program_blockText (head.append unbroken_handlerHead) closed fun cs => ?_]
    · rw [List.append_assoc, read_setHandler targetReadable (trim_handlerHead _)
        (List.cons_ne_nil _ _) (handler?_handlerHead lines)]
    · rw [List.append_assoc]
      exact trim_append_value rfl (trim_handlerHead cs) (List.cons_ne_nil _ _)

/-- A body with a block and an unknown statement, in which strings and comments hold
brackets without partners. -/
def bracketBody : String :=
  "var a = '\x7d' // \x7d (\nif (a) \x7b alert(\"\x7b\"); // '\n\x7d while )) b++ //"

theorem program_of_bracketBody :
    Closed .brace (dropComments (.code .outside) bracketBody.toList) ∧
      (∀ statement ∈ program bracketBody, statement.nesting < maxBlockDepth) ∧
      IsName "f" ∧ Snippet.Readable ⟨"x"⟩ ∧ Snippet.Readable ⟨"'t'"⟩ ∧
      program (blockText (definitionHead "f") bracketBody) = [define "f" (program bracketBody)] ∧
      program (blockText (conditionalHead ⟨"x"⟩) bracketBody) =
        [conditional ⟨"x"⟩ (program bracketBody)] ∧
      ∃ handler, program handler = program bracketBody ∧
        program (blockText (mutationHead ⟨"'t'"⟩ "onclick") bracketBody) =
          [setHandler ⟨"'t'"⟩ handler] ∧
        program (blockText (mutationHead ⟨"'t'"⟩ "onclick" ++ handlerHead) bracketBody) =
          [setHandler ⟨"'t'"⟩ handler] := by
  have closed : Closed .brace (dropComments (.code .outside) bracketBody.toList) :=
    ⟨by decide +kernel, by decide +kernel⟩
  have nested : ∀ statement ∈ program bracketBody, statement.nesting < maxBlockDepth := by
    decide +kernel
  have name : IsName "f" := ⟨⟨'f', rfl, rfl⟩, List.all_eq_true.1 rfl⟩
  have condition : Snippet.Readable ⟨"x"⟩ :=
    Snippet.readable_of_isOk (by decide +kernel) (by decide)
  have target : Snippet.Readable ⟨"'t'"⟩ :=
    Snippet.readable_of_isOk (by decide +kernel) (by decide)
  exact ⟨closed, nested, name, condition, target,
    program_of_body closed nested name condition target⟩

end Script
end Pagelet
