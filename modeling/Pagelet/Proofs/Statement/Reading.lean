import Pagelet.Proofs.Statement.Forms
import Pagelet.Proofs.Statement.Room

/-!
# Telling statements apart

The readers of the forms are tried in a fixed order.  Here each form of text is
shown to reach the reader of its own form: those before it answer `none`.
-/

namespace Pagelet
namespace Script
namespace Statement

open Text (trim trimStart startsBlank endsBlank)

variable {name : String} {cs rest text : List Char} {room : Nat}

/-- With room left, the forms are tried in order on a trimmed text. -/
theorem read_succ_of_trimmed (room : Nat) (trimmed : trim text = text) :
    read (room + 1) text =
      ((argument? "alert" text).map alert <|>
        definition? (fun body => (splitStatements body).map (read room)) text <|>
        invocation? text <|>
        choice? (fun body => (splitStatements body).map (read room)) (read room) text <|>
        blockless? text).getD (unknown (String.ofList text)) := by
  rw [read_succ, trimmed]

variable {callee property : String} {condition target : Snippet}

theorem trim_callText (starts : startsBlank (callText callee cs) = false) :
    trim (callText callee cs) = callText callee cs :=
  Text.trim_eq_self starts (Bracket.paren.endsBlank_around _ _)

theorem trim_definition (name : String) (cs : List Char) :
    trim (definitionHead name ++ Bracket.brace.around cs) =
      definitionHead name ++ Bracket.brace.around cs :=
  Text.trim_eq_self rfl (Bracket.brace.endsBlank_around _ _)

theorem trim_conditional (condition : Snippet) (cs : List Char) :
    trim (conditionalHead condition ++ Bracket.brace.around cs) =
      conditionalHead condition ++ Bracket.brace.around cs :=
  Text.trim_eq_self rfl (Bracket.brace.endsBlank_around _ _)

theorem trim_declarationText (isName : IsName name) :
    trim (declarationText name) = declarationText name := by
  apply Text.trim_eq_self rfl
  rw [declarationText, List.append_cons]
  exact isName.endsBlank_append _

theorem trim_append_value (starts : startsBlank (text ++ cs) = false) (trimmed : trim cs = cs)
    (notEmpty : cs ≠ []) : trim (text ++ cs) = text ++ cs := by
  apply Text.trim_eq_self starts
  rw [Text.endsBlank_append notEmpty, ← trimmed]
  exact Text.endsBlank_trim cs

/-- A word at the front of a text does not reach beyond the name there. -/
theorem exists_append_of_behindWord? (ends : ∀ c ∈ rest.head?, isNameChar c = false)
    {word : String} {behind : List Char} (letters : ∀ c ∈ word.toList, isNameChar c = true)
    (found : behindWord? word (name.toList ++ rest) = some behind) :
    ∃ more, name.toList = word.toList ++ more ∧ behind = more ++ rest := by
  rcases List.append_eq_append_iff.1 (Text.behind?_eq_some_iff.1 found) with
    ⟨more, longer, split⟩ | ⟨more, shorter, split⟩
  · cases more with
    | nil =>
        rw [List.append_nil] at longer
        exact ⟨[], by rw [longer, List.append_nil], split.symm⟩
    | cons c more =>
        have letter : isNameChar c = true := by
          apply letters
          rw [longer]
          exact List.mem_append_right _ List.mem_cons_self
        have noLetter : isNameChar c = false := ends c (by rw [split]; rfl)
        exact absurd (letter.symm.trans noLetter) (by simp)
  · exact ⟨more, shorter, split⟩

/-- A name with the empty argument is no call of another name. -/
theorem argument?_callText_of_ne (isName : IsName name) {callee : String}
    (letters : ∀ c ∈ callee.toList, isNameChar c = true) (other : name ≠ callee) :
    argument? callee (callText name []) = none := by
  rw [argument?]
  cases found : behindWord? callee (callText name []) with
  | none => rfl
  | some behind =>
      obtain ⟨more, spelled, rfl⟩ :=
        exists_append_of_behindWord? (by rintro c ⟨⟩; decide) letters found
      cases more with
      | nil =>
          rw [List.append_nil] at spelled
          exact absurd (String.toList_injective spelled) other
      | cons c more =>
          -- the name goes on where the bracket of a call would have to stand
          have letter : isNameChar c = true := by
            apply isName.continues
            rw [spelled]
            exact List.mem_append_right _ List.mem_cons_self
          have noBracket : c ≠ '(' := by
            rintro rfl
            cases letter
          have start : trimStart (c :: more ++ Bracket.paren.around []) =
              c :: more ++ Bracket.paren.around [] :=
            Text.trimStart_eq_self (Lexeme.isBlank_of_isPlain (Lexeme.isPlain_of_isNameChar letter))
          rw [Option.bind_eq_bind, Option.bind_some, start, List.cons_append, enclosed?,
            if_neg noBracket]
          rfl

theorem definition?_callText (isName : IsName name) (block : List Char → List Statement) :
    definition? block (callText name []) = none := by
  rw [definition?]
  cases found : behindWord? "function" (callText name []) with
  | none => rfl
  | some behind =>
      obtain ⟨more, spelled, rfl⟩ :=
        exists_append_of_behindWord? (by rintro c ⟨⟩; decide) (List.all_eq_true.1 rfl) found
      have noBlank : startsBlank (more ++ Bracket.paren.around []) = false := by
        cases more with
        | nil => rfl
        | cons c more =>
            have letter : isNameChar c = true := by
              apply isName.continues
              rw [spelled]
              exact List.mem_append_right _ List.mem_cons_self
            exact Lexeme.isBlank_of_isPlain (Lexeme.isPlain_of_isNameChar letter)
      rw [Option.bind_eq_bind, Option.bind_some, noBlank]
      rfl

/-- Keywords are not called. -/
theorem invocation?_keyword (split : splitName? text = some (cs, rest))
    (keyword : String.ofList cs ∈ keywords) : invocation? text = none := by
  rw [invocation?, split, Option.bind_eq_bind, Option.bind_some]
  dsimp only
  cases behindChar? '(' rest with
  | none => rfl
  | some inside =>
      have refused : ¬(trim inside = [')'] ∧ String.ofList cs ∉ keywords) :=
        fun called => called.2 keyword
      exact if_neg refused

theorem read_alert (closed : Closed .paren cs) (room : Nat) :
    read (room + 1) (callText "alert" cs) = alert (.ofChars cs) := by
  rw [read_succ_of_trimmed room (trim_callText rfl), argument?_callText "alert" closed]
  rfl

theorem read_write (closed : Closed .paren cs) (room : Nat) :
    read (room + 1) (callText "document.write" cs) = write (.ofChars cs) := by
  rw [read_succ_of_trimmed room (trim_callText rfl), blockless?,
    argument?_callText "document.write" closed]
  rfl

theorem read_log (closed : Closed .paren cs) (room : Nat) :
    read (room + 1) (callText "console.log" cs) = log (.ofChars cs) := by
  rw [read_succ_of_trimmed room (trim_callText rfl), blockless?,
    argument?_callText "console.log" closed]
  rfl

theorem read_call (isName : IsName name) (notKeyword : name ∉ keywords) (notAlert : name ≠ "alert")
    (room : Nat) : read (room + 1) (callText name []) = call name := by
  have noAlert : argument? "alert" (callText name []) = none :=
    argument?_callText_of_ne isName (List.all_eq_true.1 rfl) notAlert
  rw [read_succ_of_trimmed room (trim_callText (isName.startsBlank_append _)), noAlert,
    definition?_callText isName, invocation?_callText isName notKeyword]
  rfl

theorem read_define (isName : IsName name) (closed : Closed .brace cs) (room : Nat) :
    read (room + 1) (definitionHead name ++ Bracket.brace.around cs) =
      define name ((splitStatements cs).map (read room)) := by
  rw [read_succ_of_trimmed room (trim_definition _ _), definition?_head isName closed]
  rfl

theorem read_conditional (condition : Snippet) (conditionClosed : Closed .paren condition.chars)
    (closed : Closed .brace cs) (room : Nat) :
    read (room + 1) (conditionalHead condition ++ Bracket.brace.around cs) =
      conditional (.ofChars condition.chars) ((splitStatements cs).map (read room)) := by
  have split : splitName? (conditionalHead condition ++ Bracket.brace.around cs) =
      some (['i', 'f'], ' ' :: (Bracket.paren.around condition.chars ++
        ' ' :: Bracket.brace.around cs)) := by
    unfold conditionalHead
    simp only [List.append_assoc, List.cons_append, List.nil_append]
    rfl
  rw [read_succ_of_trimmed room (trim_conditional _ _), invocation?_keyword split (by decide),
    choice?_head condition conditionClosed closed]
  rfl

theorem declarationText_splitName? (name : String) (rest : List Char) :
    splitName? (declarationText name ++ rest) =
      some (['v', 'a', 'r'], ' ' :: (name.toList ++ rest)) := by
  unfold declarationText
  simp only [List.append_assoc, List.cons_append]
  rfl

theorem read_declare (isName : IsName name) (room : Nat) :
    read (room + 1) (declarationText name) = declare name := by
  have split := declarationText_splitName? name []
  rw [List.append_nil] at split
  rw [read_succ_of_trimmed room (trim_declarationText isName),
    invocation?_keyword split (by decide), blockless?, declaration?_declarationText isName]
  rfl

theorem read_assign (isName : IsName name) (trimmed : trim cs = cs) (notEmpty : cs ≠ [])
    (room : Nat) : read (room + 1) (assignmentHead name ++ cs) = assign name (.ofChars cs) := by
  have split : splitName? (assignmentHead name ++ cs) =
      some (['v', 'a', 'r'], ' ' :: (name.toList ++ ([' ', '=', ' '] ++ cs))) := by
    rw [assignmentHead, List.append_assoc, declarationText_splitName?]
  rw [read_succ_of_trimmed room (trim_append_value rfl trimmed notEmpty),
    invocation?_keyword split (by decide), blockless?,
    declaration?_assignment isName trimmed notEmpty]
  rfl

theorem read_mutation (target : Snippet) (property : String) (trimmed : trim cs = cs)
    (notEmpty : cs ≠ []) {statement : Statement}
    (mutation : mutation? (mutationHead target property ++ cs) = some statement) (room : Nat) :
    read (room + 1) (mutationHead target property ++ cs) = statement := by
  rw [read_succ_of_trimmed room (trim_append_value rfl trimmed notEmpty), blockless?, mutation]
  rfl

end Statement
end Script
end Pagelet
