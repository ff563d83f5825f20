import Pagelet.Proofs.Statement.Reading
import Pagelet.Proofs.Statement.Unbroken

/-!
# Printed programs are read back

A printed statement is a text that a script can hold among others: it is cut out
whole and keeps to itself.  So a printed block falls into the texts of its
statements, and by induction on the statements a whole program is read back.
-/

namespace Pagelet
namespace Script

open Text (Quotation trim)

variable {front cs text : List Char}

namespace Unbroken

theorem literal (cs : List Char) : Unbroken (literal cs) where
  balanced := .of_allUnquoted ((quoted_flatMap_escape cs).allUnquoted_literal (.inr rfl))
    ((quoted_flatMap_escape cs).after_literal (.inr rfl))
  uncut := .of_allUnquoted ((quoted_flatMap_escape cs).allUnquoted_literal (.inr rfl))
    (enclosesLineEnds_of_not_mem (lineEnd_not_mem_literal cs))
  uncommented := .of_allUnquoted ((quoted_flatMap_escape cs).allUnquoted_literal (.inr rfl))
  apart := by simp [Script.literal]

/-- A readable expression is unbroken if its line ends are enclosed. -/
theorem snippet {value : Snippet} (readable : value.Readable)
    (encloses : EnclosesLineEnds {} value.chars) : Unbroken value.chars where
  balanced := readable.balanced
  uncut := .of_allUnquoted readable.allUnquoted encloses
  uncommented := readable.uncommented
  apart := readable.head?_ne_slash

/-- A readable expression may stand between parentheses. -/
theorem snippet_around {value : Snippet} (readable : value.Readable) :
    Unbroken (Bracket.paren.around value.chars) :=
  .around_paren readable.balanced readable.uncommented

end Unbroken

/-- The text is one statement wherever a statement can begin. -/
structure Standalone (text : List Char) : Prop where
  /-- Strings and brackets are closed. -/
  balanced : Balanced text
  /-- There is no comment in the text. -/
  uncommented : Uncommented .outside text
  /-- A slash in front makes no comment. -/
  apart : text.head? ≠ some '/'
  /-- The text is cut out whole, before a semicolon. -/
  solo : ∀ back, solid (pieces {} (text ++ ';' :: back)) = text :: solid (pieces {} back)

namespace Standalone

/-- A trimmed text that is not cut stands alone. -/
theorem of_unbroken (unbroken : Unbroken text) (trimmed : trim text = text)
    (notEmpty : text ≠ []) : Standalone text where
  balanced := unbroken.balanced
  uncommented := unbroken.uncommented
  apart := unbroken.apart
  solo back := by
    rw [pieces_separated unbroken.uncut (unbroken.balanced.after rfl) (.inl rfl), solid_cons,
      solid_of_trimmed trimmed notEmpty, List.singleton_append]

/-- A text ending in a block stands alone. -/
theorem block (unbroken : Unbroken front) (balanced : Balanced cs)
    (uncommented : Uncommented .outside cs)
    (trimmed : trim (front ++ Bracket.brace.around cs) = front ++ Bracket.brace.around cs) :
    Standalone (front ++ Bracket.brace.around cs) where
  balanced := unbroken.balanced.append (balanced.around .brace)
  uncommented := by
    refine unbroken.uncommented.append ?_ nofun
    rw [unbroken.balanced.after_quotation]
    refine ⟨nofun, uncommented.append ?_ nofun⟩
    rw [balanced.after_quotation]
    exact ⟨nofun, trivial⟩
  apart := by
    cases front with
    | nil => simp [Bracket.around, Bracket.opening]
    | cons c front => exact unbroken.apart
  solo back := by
    have notEmpty : front ++ Bracket.brace.around cs ≠ [] := by simp [Bracket.around]
    have separator : pieces {} (';' :: back) = [] :: pieces {} back := rfl
    rw [pieces_block unbroken.uncut (unbroken.balanced.after rfl) (balanced .brace), separator,
      solid_cons, solid_of_trimmed trimmed notEmpty, solid_cons,
      solid_of_blank Text.isBlankText_nil, List.nil_append, List.singleton_append]

end Standalone

namespace Statement

variable {statements : List Statement} {statement : Statement}

/-- A printed block is balanced if its statements stand alone. -/
theorem balanced_printBlock (standalone : ∀ s ∈ statements, Standalone s.print) :
    Balanced (printBlock statements) := by
  induction statements with
  | nil => exact .nil
  | cons statement more ih =>
      obtain ⟨first, others⟩ := List.forall_mem_cons.1 standalone
      have sign : Balanced [';', '\n'] := .of_isInert (List.all_eq_true.1 rfl)
      exact first.balanced.append (sign.append (ih others))

theorem uncommented_printBlock (standalone : ∀ s ∈ statements, Standalone s.print) :
    Uncommented .outside (printBlock statements) := by
  induction statements with
  | nil => trivial
  | cons statement more ih =>
      obtain ⟨first, others⟩ := List.forall_mem_cons.1 standalone
      refine first.uncommented.append ?_ nofun
      rw [first.balanced.after_quotation]
      exact ⟨nofun, nofun, ih others⟩

/-- A printed block falls into the texts of its statements. -/
theorem solid_pieces_printBlock (standalone : ∀ s ∈ statements, Standalone s.print) :
    solid (pieces {} (printBlock statements)) = statements.map print := by
  induction statements with
  | nil => rfl
  | cons statement more ih =>
      obtain ⟨first, others⟩ := List.forall_mem_cons.1 standalone
      have lineEnd : pieces {} ('\n' :: printBlock more) = [] :: pieces {} (printBlock more) := rfl
      rw [printBlock, first.solo, lineEnd, solid_cons, solid_of_blank Text.isBlankText_nil,
        ih others, List.nil_append, List.map_cons]

theorem balanced_spaced (standalone : ∀ s ∈ statements, Standalone s.print) :
    Balanced (' ' :: printBlock statements ++ [' ']) := by
  have space : Balanced [' '] := .of_isInert (List.all_eq_true.1 rfl)
  exact (space.append (balanced_printBlock standalone)).append space

theorem uncommented_spaced (standalone : ∀ s ∈ statements, Standalone s.print) :
    Uncommented .outside (' ' :: printBlock statements ++ [' ']) := by
  refine ⟨nofun, (uncommented_printBlock standalone).append ?_ nofun⟩
  rw [(balanced_printBlock standalone).after_quotation]
  exact ⟨nofun, trivial⟩

/-- Spaces around a printed block take no part in it. -/
theorem splitStatements_spaced (standalone : ∀ s ∈ statements, Standalone s.print) :
    splitStatements (' ' :: printBlock statements ++ [' ']) = statements.map print := by
  have blank : Text.IsBlankText [' '] := by simp [Text.IsBlankText, Text.isBlank]
  rw [splitStatements_eq, (uncommented_spaced standalone).dropComments_eq]
  exact (solid_pieces_blank_append blank blank _).trans (solid_pieces_printBlock standalone)

theorem isWordChar_of_isPlain {c : Char} (plain : Lexeme.isPlain c = true) :
    isWordChar c = true := by
  have inert := Lexeme.isInert_of_isPlain plain
  have separate : ['/', ';', '\n'].contains c = false := by
    by_contra listed
    simp only [Bool.not_eq_false, List.contains_iff_mem, List.mem_cons, List.not_mem_nil,
      or_false] at listed
    rcases listed with rfl | rfl | rfl <;> cases plain
  rw [isWordChar, inert, separate]
  rfl

theorem IsName.unbroken {name : String} (isName : IsName name) : Unbroken name.toList := by
  apply Unbroken.of_isWordChar
  intro c member
  exact isWordChar_of_isPlain (Lexeme.isPlain_of_isNameChar (isName.continues c member))

theorem unbroken_callText {callee : String} {argument : List Char}
    (word : Unbroken callee.toList) (arguments : Unbroken (Bracket.paren.around argument)) :
    Unbroken (callText callee argument) :=
  word.append arguments

theorem unbroken_nil_around : Unbroken (Bracket.paren.around []) :=
  .around_paren .nil trivial

theorem unbroken_definitionHead {name : String} (isName : IsName name) :
    Unbroken (definitionHead name) := by
  have keyword : Unbroken ("function".toList ++ [' ']) := .word rfl
  have space : Unbroken [' '] := .word rfl
  have whole := (keyword.append (isName.unbroken.append unbroken_nil_around)).append space
  rw [List.append_assoc "function".toList] at whole
  exact whole

theorem unbroken_conditionalHead {condition : Snippet} (readable : condition.Readable) :
    Unbroken (conditionalHead condition) := by
  have keyword : Unbroken ("if".toList ++ [' ']) := .word rfl
  have space : Unbroken [' '] := .word rfl
  have whole := (keyword.append (Unbroken.snippet_around readable)).append space
  rw [List.append_assoc "if".toList] at whole
  exact whole

theorem unbroken_declarationText {name : String} (isName : IsName name) :
    Unbroken (declarationText name) := by
  have keyword : Unbroken ("var".toList ++ [' ']) := .word rfl
  have whole := keyword.append isName.unbroken
  rw [List.append_assoc] at whole
  exact whole

theorem unbroken_mutationHead {target : Snippet} (readable : target.Readable) {property : String}
    (isName : IsName property) : Unbroken (mutationHead target property) := by
  have word : Unbroken "document.getElementById".toList := .word rfl
  have dot : Unbroken ['.'] := .word rfl
  have sign : Unbroken [' ', '=', ' '] := .word rfl
  have front := unbroken_callText word (Unbroken.snippet_around readable)
  exact (front.append (dot.append isName.unbroken)).append sign

theorem standalone_callText {callee : String} {argument : List Char}
    (word : Unbroken callee.toList) (arguments : Unbroken (Bracket.paren.around argument))
    (starts : Text.startsBlank (callText callee argument) = false) :
    Standalone (callText callee argument) :=
  .of_unbroken (unbroken_callText word arguments) (trim_callText starts)
    (by simp [callText, Bracket.around])

theorem standalone_value {value : List Char} (unbroken : Unbroken (front ++ value))
    (starts : Text.startsBlank (front ++ value) = false) (trimmed : trim value = value)
    (notEmpty : value ≠ []) : Standalone (front ++ value) :=
  .of_unbroken unbroken (trim_append_value starts trimmed notEmpty) (by simp [notEmpty])

/-- A well printed statement keeps to itself among others. -/
theorem Written.standalone (written : Written statement) : Standalone statement.print := by
  induction written with
  | alert readable =>
      exact standalone_callText (.word rfl) (.snippet_around readable) rfl
  | define isName written ih =>
      exact .block (unbroken_definitionHead isName) (balanced_spaced ih) (uncommented_spaced ih)
        (trim_definition _ _)
  | call isName notKeyword notAlert =>
      exact standalone_callText isName.unbroken unbroken_nil_around (isName.startsBlank_append _)
  | conditional readable written ih =>
      exact .block (unbroken_conditionalHead readable) (balanced_spaced ih) (uncommented_spaced ih)
        (trim_conditional _ _)
  | write readable =>
      exact standalone_callText (.word rfl) (.snippet_around readable) rfl
  | log readable =>
      exact standalone_callText (.word rfl) (.snippet_around readable) rfl
  | declare isName =>
      exact .of_unbroken (unbroken_declarationText isName) (trim_declarationText isName)
        (List.cons_ne_nil _ _)
  | assign isName readable encloses =>
      have sign : Unbroken [' ', '=', ' '] := .word rfl
      have head := (unbroken_declarationText isName).append sign
      exact standalone_value (head.append (.snippet readable encloses)) rfl readable.trimmed
        readable.chars_ne_nil
  | setHandler readable handler =>
      have head := unbroken_mutationHead readable isName_onclick
      exact standalone_value (head.append (.literal _)) rfl (trim_literal _) (List.cons_ne_nil _ _)
  | setText targetReadable contentReadable encloses =>
      have head := unbroken_mutationHead targetReadable isName_innerText
      exact standalone_value (head.append (.snippet contentReadable encloses)) rfl
        contentReadable.trimmed contentReadable.chars_ne_nil

/-- The statements of a block are read back if each is, one block further in. -/
theorem map_read_print {room : Nat}
    (readBack : ∀ s ∈ statements, ∀ {room : Nat}, s.nesting ≤ room → read (room + 1) s.print = s)
    (nested : blockNesting statements ≤ room) :
    (statements.map print).map (read room) = statements := by
  rw [List.map_map, List.map_congr_left, List.map_id]
  intro s member
  have less : s.nesting < room := blockNesting_le_iff.1 nested s member
  obtain ⟨inner, rfl⟩ := Nat.exists_eq_add_one_of_ne_zero (Nat.ne_of_gt (Nat.zero_lt_of_lt less))
  exact readBack s member (Nat.le_of_lt_succ less)

/-- A well printed statement is read back where there is room for its blocks. -/
theorem read_print (written : Written statement) {room : Nat} (nested : statement.nesting ≤ room) :
    read (room + 1) statement.print = statement := by
  induction written generalizing room with
  | alert readable =>
      have closed := readable.balanced .paren
      rw [print, read_alert closed, readable.ofChars_eq]
  | @define name body isName written ih =>
      have standalone : ∀ s ∈ body, Standalone s.print := by
        intro s member
        exact (written s member).standalone
      rw [print, read_define isName (balanced_spaced standalone .brace),
        splitStatements_spaced standalone, map_read_print (fun s member => ih s member) nested]
  | call isName notKeyword notAlert => exact read_call isName notKeyword notAlert room
  | @conditional condition body readable written ih =>
      have standalone : ∀ s ∈ body, Standalone s.print := by
        intro s member
        exact (written s member).standalone
      rw [print, read_conditional _ (readable.balanced .paren) (balanced_spaced standalone .brace),
        splitStatements_spaced standalone, map_read_print (fun s member => ih s member) nested,
        readable.ofChars_eq]
  | write readable => rw [print, read_write (readable.balanced .paren), readable.ofChars_eq]
  | log readable => rw [print, read_log (readable.balanced .paren), readable.ofChars_eq]
  | declare isName => exact read_declare isName room
  | assign isName readable encloses =>
      rw [print, read_assign isName readable.trimmed readable.chars_ne_nil, readable.ofChars_eq]
  | @setHandler target readable handler =>
      have mutation := mutation?_onclick target (readable.balanced .paren)
        (trim_literal handler.toList) (List.cons_ne_nil _ _)
      rw [handler?_literal, String.ofList_toList, readable.ofChars_eq] at mutation
      exact read_mutation _ _ (trim_literal _) (List.cons_ne_nil _ _) mutation room
  | @setText target content targetReadable contentReadable encloses =>
      have mutation := mutation?_innerText target (targetReadable.balanced .paren)
        contentReadable.trimmed contentReadable.chars_ne_nil
      rw [targetReadable.ofChars_eq, contentReadable.ofChars_eq] at mutation
      exact read_mutation _ _ contentReadable.trimmed contentReadable.chars_ne_nil mutation room

end Statement

/-- A program of well printed statements is read back from its text, if no statement
stands in more blocks than are read. -/
theorem program_printProgram {statements : List Statement}
    (written : ∀ statement ∈ statements, statement.Written)
    (nested : ∀ statement ∈ statements, statement.nesting ≤ maxBlockDepth) :
    program (printProgram statements) = statements := by
  have standalone : ∀ s ∈ statements, Standalone s.print := by
    intro s member
    exact (written s member).standalone
  have fits : Statement.blockNesting statements ≤ maxBlockDepth + 1 := by
    apply Statement.blockNesting_le_iff.2
    intro s member
    exact Nat.lt_succ_of_le (nested s member)
  rw [program, printProgram, String.toList_ofList, splitStatements_eq,
    (Statement.uncommented_printBlock standalone).dropComments_eq,
    Statement.solid_pieces_printBlock standalone]
  exact Statement.map_read_print (fun s member _ => Statement.read_print (written s member)) fits

/-- A script with blocks in blocks, and with brackets, comment signs and line ends in
its strings and parentheses. -/
def greeting : List Statement :=
  [.define "greet"
    [.conditional ⟨"name == 'a;\x7d//'"⟩
      [.alert ⟨"name +\n'!'"⟩, .setHandler ⟨"'door'"⟩ "open(\"\x7b\");\n", .conditional ⟨"!x"⟩ []]],
    .assign "name" ⟨"(1 +\n2) * 3"⟩, .declare "other", .call "greet"]

theorem program_printProgram_greeting :
    (∀ statement ∈ greeting, statement.Written) ∧
      (∀ statement ∈ greeting, statement.nesting ≤ maxBlockDepth) ∧
      program (printProgram greeting) = greeting := by
  have greet : Statement.IsName "greet" := ⟨⟨'g', rfl, rfl⟩, List.all_eq_true.1 rfl⟩
  have name : Statement.IsName "name" := ⟨⟨'n', rfl, rfl⟩, List.all_eq_true.1 rfl⟩
  have other : Statement.IsName "other" := ⟨⟨'o', rfl, rfl⟩, List.all_eq_true.1 rfl⟩
  have written : ∀ statement ∈ greeting, statement.Written := by
    simp only [greeting, List.mem_cons, List.not_mem_nil, or_false, forall_eq_or_imp, forall_eq]
    refine ⟨.define greet ?_, .assign name ?_ ?_, .declare other, .call greet ?_ ?_⟩
    · simp only [List.mem_cons, List.not_mem_nil, or_false, forall_eq]
      refine .conditional (Snippet.readable_of_isOk (by decide +kernel) (by decide)) ?_
      simp only [List.mem_cons, List.not_mem_nil, or_false, forall_eq_or_imp, forall_eq]
      refine ⟨.alert ?_, .setHandler ?_ _, .conditional ?_ ?_⟩
      · exact Snippet.readable_of_isOk (by decide +kernel) (by decide)
      · exact Snippet.readable_of_isOk (by decide +kernel) (by decide)
      · exact Snippet.readable_of_isOk (by decide +kernel) (by decide)
      · exact List.forall_mem_nil _
    · exact Snippet.readable_of_isOk (by decide +kernel) (by decide)
    · decide
    · decide
    · decide
  have nested : ∀ statement ∈ greeting, statement.nesting ≤ maxBlockDepth := by decide
  exact ⟨written, nested, program_printProgram written nested⟩

end Script
end Pagelet
