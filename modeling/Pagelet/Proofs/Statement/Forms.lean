import Pagelet.Proofs.Statement.Printing

/-!
# Reading the forms of statements

Each reader takes the text of its form apart, whatever balanced text stands between
the brackets of it.  The readers that are tried before it have no use for the text,
which its first word shows.
-/

namespace Pagelet
namespace Script

open Text (trim trimStart startsBlank endsBlank)

theorem Bracket.startsBlank_around (bracket : Bracket) (cs : List Char) :
    startsBlank (bracket.around cs) = false := by
  cases bracket <;> rfl

theorem Bracket.endsBlank_around (bracket : Bracket) (front cs : List Char) :
    endsBlank (front ++ bracket.around cs) = false := by
  have last : front ++ bracket.around cs =
      (front ++ bracket.opening :: cs) ++ [bracket.closing] := by
    simp [Bracket.around]
  rw [last, Text.endsBlank_append (List.cons_ne_nil _ _)]
  cases bracket <;> rfl

theorem quoted_flatMap_escape (cs : List Char) :
    Lexeme.Quoted '"' (cs.flatMap escape) cs := by
  induction cs with
  | nil => exact .nil
  | cons c cs ih =>
      rw [List.flatMap_cons, escape]
      split
      · next special =>
        have same : Lexeme.unescape c = c := by rcases special with rfl | rfl <;> rfl
        have quoted := ih.escape c
        rw [same] at quoted
        exact quoted
      · next ordinary =>
        rw [not_or] at ordinary
        split
        · next lineEnd => exact lineEnd ▸ ih.escape 'n'
        · split
          · next tab => exact tab ▸ ih.escape 't'
          · exact .bare ordinary.1 ordinary.2 ih

/-- A string literal is read as the text it stands for. -/
theorem parse_literal (cs : List Char) :
    Expr.parse (String.ofList (literal cs)) = .ok (.literal (.text (String.ofList cs))) := by
  have read : Lexeme.next '"' (cs.flatMap escape ++ ['"']) =
      .ok (.text (String.ofList cs), []) := by
    have found := Lexeme.readText?_append (by decide) (quoted_flatMap_escape cs) []
    simp [Lexeme.next, found]
  have scanned : Lexeme.scan (literal cs) = .ok [.text (String.ofList cs)] := by
    rw [literal, List.cons_append, Lexeme.scan_next rfl read, Lexeme.scan_nil]
    rfl
  rw [Expr.parse, String.toList_ofList, scanned]
  rfl

theorem trim_literal (cs : List Char) : trim (literal cs) = literal cs := by
  apply Text.trim_eq_self rfl
  rw [literal, Text.endsBlank_append (List.cons_ne_nil _ _)]
  rfl

theorem lineEnd_not_mem_literal (cs : List Char) : '\n' ∉ literal cs := by
  have plain (c : Char) : '\n' ∉ escape c := by
    unfold escape
    split
    · next special => rcases special with rfl | rfl <;> decide
    · split
      · decide
      · split
        · decide
        · next notLineEnd _ => simpa using Ne.symm notLineEnd
  simp [literal, plain]

namespace Statement

variable {name : String} {cs rest : List Char} {room : Nat}

/-- A name begins with the start of one and goes on with its characters. -/
theorem IsName.exists_cons (isName : IsName name) :
    ∃ first more, name.toList = first :: more ∧ isNameStart first = true ∧
      ∀ c ∈ more, isNameChar c = true := by
  obtain ⟨first, isFirst, starts⟩ := isName.starts
  obtain ⟨head, more, spelled⟩ := List.exists_cons_of_ne_nil
    (List.ne_nil_of_mem (List.mem_of_head? isFirst))
  rw [spelled, List.head?_cons, Option.mem_def, Option.some.injEq] at isFirst
  subst isFirst
  refine ⟨head, more, spelled, starts, ?_⟩
  intro c member
  apply isName.continues
  rw [spelled]
  exact List.mem_cons_of_mem _ member

/-- What is cut off the front of a text as a name is one. -/
theorem isName_of_splitName? {cs name behind : List Char}
    (cut : splitName? cs = some (name, behind)) : IsName (String.ofList name) := by
  have continues := Lexeme.isNameChar_of_splitName? cut
  cases cs with
  | nil => cases cut
  | cons c rest =>
      rw [splitName?] at cut
      split at cut
      · next start =>
        cases cut
        exact ⟨⟨c, by simp, start⟩, by simpa using continues⟩
      · cases cut

/-- A name is cut off where no character can continue it. -/
theorem IsName.splitName?_append (isName : IsName name)
    (ends : ∀ c ∈ rest.head?, isNameChar c = false) :
    splitName? (name.toList ++ rest) = some (name.toList, rest) := by
  obtain ⟨first, more, spelled, starts, continues⟩ := isName.exists_cons
  have behind : rest.takeWhile isNameChar = [] ∧ rest.dropWhile isNameChar = rest := by
    cases rest with
    | nil => exact ⟨rfl, rfl⟩
    | cons c rest => simp [ends c rfl]
  rw [spelled, List.cons_append, splitName?, if_pos starts,
    List.takeWhile_append_of_pos continues, List.dropWhile_append_of_pos continues,
    behind.1, behind.2, List.append_nil]

theorem IsName.startsBlank_append (isName : IsName name) (rest : List Char) :
    startsBlank (name.toList ++ rest) = false := by
  obtain ⟨first, more, spelled, starts, -⟩ := isName.exists_cons
  rw [spelled]
  exact Lexeme.isBlank_of_isPlain
    (Lexeme.isPlain_of_isNameChar (Lexeme.isNameChar_of_isNameStart starts))

theorem IsName.endsBlank_append (isName : IsName name) (front : List Char) :
    endsBlank (front ++ name.toList) = false := by
  obtain ⟨first, more, spelled, -⟩ := isName.exists_cons
  have notEmpty : name.toList ≠ [] := by simp [spelled]
  rw [Text.endsBlank_append notEmpty, endsBlank]
  cases reversed : name.toList.reverse with
  | nil => rfl
  | cons last others =>
      have member : last ∈ name.toList := List.mem_reverse.1 (reversed ▸ List.mem_cons_self)
      exact Lexeme.isBlank_of_isPlain (Lexeme.isPlain_of_isNameChar (isName.continues last member))

theorem isName_onclick : IsName "onclick" :=
  ⟨⟨'o', rfl, rfl⟩, List.all_eq_true.1 rfl⟩

theorem isName_innerText : IsName "innerText" :=
  ⟨⟨'i', rfl, rfl⟩, List.all_eq_true.1 rfl⟩

theorem behindWord?_append (word : String) (rest : List Char) :
    behindWord? word (word.toList ++ rest) = some rest :=
  Text.behind?_eq_some_iff.2 rfl

/-- A block is what its braces enclose. -/
theorem block?_around (closed : Closed .brace cs) : block? (Bracket.brace.around cs) = some cs := by
  have found := enclosed?_around closed []
  rw [List.append_nil] at found
  rw [block?]
  refine (congrArg (· >>= _) found).trans ?_
  rfl

theorem argument?_callText (callee : String) (closed : Closed .paren cs) :
    argument? callee (callText callee cs) = some (.ofChars cs) := by
  have found := enclosed?_around closed []
  rw [List.append_nil] at found
  rw [argument?, callText, behindWord?_append, Option.bind_eq_bind, Option.bind_some,
    Text.trimStart_eq_self (Bracket.startsBlank_around _ _)]
  refine (congrArg (· >>= _) found).trans ?_
  rfl

theorem startsBlank_space (rest : List Char) : startsBlank (' ' :: rest) = true :=
  rfl

theorem trimStart_equalSign (rest : List Char) : trimStart (' ' :: '=' :: rest) = '=' :: rest :=
  rfl

/-- A name behind a space, as it stands in a declaration. -/
theorem IsName.splitName?_trimStart (isName : IsName name)
    (ends : ∀ c ∈ rest.head?, isNameChar c = false) :
    splitName? (trimStart (' ' :: (name.toList ++ rest))) = some (name.toList, rest) := by
  rw [Text.trimStart_cons_of_blank rfl, Text.trimStart_eq_self (isName.startsBlank_append _),
    isName.splitName?_append ends]

theorem parameterless?_around (closed : Closed .brace cs) :
    parameterless? (Bracket.paren.around [] ++ ' ' :: Bracket.brace.around cs) = some cs :=
  block?_around closed

/-- A definition is read to its name and its block. -/
theorem definition?_head (isName : IsName name) (closed : Closed .brace cs)
    (block : List Char → List Statement) :
    definition? block (definitionHead name ++ Bracket.brace.around cs) =
      some (define name (block cs)) := by
  have whole : definitionHead name ++ Bracket.brace.around cs =
      "function".toList ++
        ' ' :: (name.toList ++ (Bracket.paren.around [] ++ ' ' :: Bracket.brace.around cs)) := by
    unfold definitionHead callText
    simp only [List.append_assoc, List.cons_append, List.nil_append]
  have split : splitName? (trimStart (' ' ::
      (name.toList ++ (Bracket.paren.around [] ++ ' ' :: Bracket.brace.around cs)))) =
      some (name.toList, Bracket.paren.around [] ++ ' ' :: Bracket.brace.around cs) :=
    isName.splitName?_trimStart (by rintro c ⟨⟩; decide)
  rw [whole, definition?, behindWord?_append]
  simp only [Option.bind_eq_bind, Option.bind_some, startsBlank_space, Bool.not_true,
    Bool.false_eq_true, if_false, split, parameterless?_around closed, String.ofList_toList]

theorem choice?_head (condition : Snippet) (conditionClosed : Closed .paren condition.chars)
    (closed : Closed .brace cs) (block : List Char → List Statement)
    (single : List Char → Statement) :
    choice? block single (conditionalHead condition ++ Bracket.brace.around cs) =
      some (conditional (.ofChars condition.chars) (block cs)) := by
  have whole : conditionalHead condition ++ Bracket.brace.around cs =
      "if".toList ++
        ' ' :: (Bracket.paren.around condition.chars ++ ' ' :: Bracket.brace.around cs) := by
    unfold conditionalHead
    simp only [List.append_assoc, List.cons_append, List.nil_append]
  have start : trimStart (' ' ::
      (Bracket.paren.around condition.chars ++ ' ' :: Bracket.brace.around cs)) =
      Bracket.paren.around condition.chars ++ ' ' :: Bracket.brace.around cs := rfl
  have found : enclosed? '(' ')'
      (Bracket.paren.around condition.chars ++ ' ' :: Bracket.brace.around cs) =
      some (condition.chars, ' ' :: Bracket.brace.around cs) :=
    enclosed?_around conditionClosed _
  have block_start : trimStart (' ' :: Bracket.brace.around cs) = '{' :: (cs ++ ['}']) := rfl
  have inner : block? ('{' :: (cs ++ ['}'])) = some cs := block?_around closed
  rw [whole, choice?, behindWord?_append]
  simp only [Option.bind_eq_bind, Option.bind_some, startsBlank_space, Bool.true_or, Bool.not_true,
    Bool.false_eq_true, if_false, start, found, block_start, inner, Option.map_some]

/-- A call without arguments is read to its name, unless that is a keyword. -/
theorem invocation?_callText (isName : IsName name) (notKeyword : name ∉ keywords) :
    invocation? (callText name []) = some (call name) := by
  have split : splitName? (callText name []) = some (name.toList, Bracket.paren.around []) :=
    isName.splitName?_append (by rintro c ⟨⟩; decide)
  have inside : behindChar? '(' (Bracket.paren.around []) = some [')'] := rfl
  rw [invocation?, split]
  simp only [Option.bind_eq_bind, Option.bind_some, inside, String.ofList_toList]
  exact if_pos ⟨rfl, notKeyword⟩

theorem declaration?_declarationText (isName : IsName name) :
    declaration? (declarationText name) = some (declare name) := by
  have found : declared? (declarationText name) = some (' ' :: name.toList) := by
    rw [declared?, declarationText, behindWord?_append]
    rfl
  have split : splitName? (trimStart (' ' :: (name.toList ++ []))) = some (name.toList, []) :=
    isName.splitName?_trimStart (by rintro c ⟨⟩)
  rw [List.append_nil] at split
  have empty : trimStart [] = [] := rfl
  rw [declaration?, found]
  simp only [Option.bind_eq_bind, Option.bind_some, startsBlank_space, Bool.not_true,
    Bool.false_eq_true, if_false, split, empty, String.ofList_toList]

theorem assigned?_value (trimmed : trim cs = cs) (notEmpty : cs ≠ []) :
    assigned? ('=' :: ' ' :: cs) = some cs := by
  have value : trim (' ' :: cs) = cs := by
    rw [trim, Text.trimStart_cons_of_blank rfl]
    exact trimmed
  simp [assigned?, value, notEmpty]

/-- A declaration with a value is read to an assignment. -/
theorem declaration?_assignment (isName : IsName name) (trimmed : trim cs = cs)
    (notEmpty : cs ≠ []) :
    declaration? (assignmentHead name ++ cs) = some (assign name (.ofChars cs)) := by
  have whole : assignmentHead name ++ cs =
      "var".toList ++ ' ' :: (name.toList ++ ' ' :: '=' :: ' ' :: cs) := by
    unfold assignmentHead declarationText
    simp only [List.append_assoc, List.cons_append, List.nil_append]
  have found : declared? (assignmentHead name ++ cs) =
      some (' ' :: (name.toList ++ ' ' :: '=' :: ' ' :: cs)) := by
    rw [whole, declared?, behindWord?_append]
    rfl
  have split : splitName? (trimStart (' ' :: (name.toList ++ ' ' :: '=' :: ' ' :: cs))) =
      some (name.toList, ' ' :: '=' :: ' ' :: cs) :=
    isName.splitName?_trimStart (by rintro c ⟨⟩; decide)
  rw [declaration?, found]
  simp only [Option.bind_eq_bind, Option.bind_some, startsBlank_space, Bool.not_true,
    Bool.false_eq_true, if_false, split, trimStart_equalSign, assigned?_value trimmed notEmpty,
    String.ofList_toList]

/-- The statement that gives a property of an element its value. -/
def mutationOf? (target : Snippet) (cs : List Char) (property : String) : Option Statement :=
  match property with
  | "onclick" => (handler? cs).map (setHandler target)
  | "innerText" => some (setText target (.ofChars cs))
  | "textContent" => some (setText target (.ofChars cs))
  | _ => none

/-- A mutation is read to its target, its property and its value. -/
theorem mutation?_head (target : Snippet) (closed : Closed .paren target.chars)
    (isName : IsName name) (trimmed : trim cs = cs) (notEmpty : cs ≠ []) :
    mutation? (mutationHead target name ++ cs) =
      mutationOf? (.ofChars target.chars) cs name := by
  have whole : mutationHead target name ++ cs =
      "document.getElementById".toList ++ (Bracket.paren.around target.chars ++
        '.' :: (name.toList ++ ' ' :: '=' :: ' ' :: cs)) := by
    unfold mutationHead callText
    simp only [List.append_assoc, List.cons_append, List.nil_append]
  have start (rest : List Char) : trimStart (Bracket.paren.around target.chars ++ rest) =
      Bracket.paren.around target.chars ++ rest := rfl
  have found (rest : List Char) : enclosed? '(' ')' (Bracket.paren.around target.chars ++ rest) =
      some (target.chars, rest) := enclosed?_around closed rest
  have member : behindChar? '.' ('.' :: (name.toList ++ ' ' :: '=' :: ' ' :: cs)) =
      some (name.toList ++ ' ' :: '=' :: ' ' :: cs) := rfl
  have property : trimStart (name.toList ++ ' ' :: '=' :: ' ' :: cs) =
      name.toList ++ ' ' :: '=' :: ' ' :: cs :=
    Text.trimStart_eq_self (isName.startsBlank_append _)
  have split : splitName? (name.toList ++ ' ' :: '=' :: ' ' :: cs) =
      some (name.toList, ' ' :: '=' :: ' ' :: cs) :=
    isName.splitName?_append (by rintro c ⟨⟩; decide)
  rw [whole, mutation?, behindWord?_append]
  simp only [Option.bind_eq_bind, Option.bind_some, start, found, member, property, split,
    trimStart_equalSign, assigned?_value trimmed notEmpty, String.ofList_toList]
  rfl

theorem mutation?_onclick (target : Snippet) (closed : Closed .paren target.chars)
    (trimmed : trim cs = cs) (notEmpty : cs ≠ []) :
    mutation? (mutationHead target "onclick" ++ cs) =
      (handler? cs).map (setHandler (.ofChars target.chars)) :=
  mutation?_head target closed isName_onclick trimmed notEmpty

theorem mutation?_innerText (target : Snippet) (closed : Closed .paren target.chars)
    (trimmed : trim cs = cs) (notEmpty : cs ≠ []) :
    mutation? (mutationHead target "innerText" ++ cs) =
      some (setText (.ofChars target.chars) (.ofChars cs)) :=
  mutation?_head target closed isName_innerText trimmed notEmpty

theorem handler?_block (closed : Closed .brace cs) :
    handler? (Bracket.brace.around cs) = some (String.ofList (trim cs)) := by
  have inner : block? ('{' :: (cs ++ ['}'])) = some cs := block?_around closed
  rw [Bracket.around, Bracket.opening, Bracket.closing, handler?, inner]
  rfl

theorem handler?_function (closed : Closed .brace cs) :
    handler? ("function".toList ++ ' ' :: (Bracket.paren.around [] ++
      ' ' :: Bracket.brace.around cs)) = some (String.ofList (trim cs)) := by
  have inner : parameterless? (' ' :: (Bracket.paren.around [] ++
      ' ' :: Bracket.brace.around cs)) = some cs := block?_around closed
  have first (rest : List Char) : handler? ("function".toList ++ rest) =
      (parameterless? rest).map fun body => String.ofList (trim body) := rfl
  rw [first, inner]
  rfl

/-- A handler in quotes is read to the text that they quote. -/
theorem handler?_literal (cs : List Char) : handler? (literal cs) = some (String.ofList cs) := by
  have expression : (Snippet.ofChars (literal cs)).expression =
      .ok (.literal (.text (String.ofList cs))) := by
    rw [Snippet.expression, Snippet.ofChars, trim_literal, parse_literal]
  have noFunction : behindWord? "function" (literal cs) = none := rfl
  unfold handler?
  split
  · next brace => cases brace
  · rw [noFunction, expression]

end Statement

end Script
end Pagelet
