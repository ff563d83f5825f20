import Pagelet.Proofs.Statement.Printing

/-!
# Room for blocks

How a text is read depends on the room for nested blocks only through the texts in
its block.  A text whose blocks do not use up the room is read alike with less, and
where the room is used up, statements are kept as text.
-/

namespace Pagelet
namespace Script
namespace Statement

open Text (trim trimStart)

variable {cs text : List Char} {room : Nat}

/-- The statements in the block of a statement. -/
def body : Statement → List Statement
  | define _ body => body
  | conditional _ body => body
  | _ => []

theorem nesting_eq_blockNesting_body (statement : Statement) :
    statement.nesting = blockNesting statement.body := by
  cases statement <;> rfl

/-- The statement of a form that has no block and is tried behind the conditional. -/
def blockless? (cs : List Char) : Option Statement :=
  (argument? "document.write" cs).map write <|>
    (argument? "console.log" cs).map log <|>
    declaration? cs <|>
    mutation? cs <|>
    assignment? cs

/-- With room left, the forms are tried in order on the trimmed text. -/
theorem read_succ (room : Nat) (text : List Char) :
    read (room + 1) text =
      ((argument? "alert" (trim text)).map alert <|>
        definition? (fun body => (splitStatements body).map (read room)) (trim text) <|>
        invocation? (trim text) <|>
        choice? (fun body => (splitStatements body).map (read room)) (read room) (trim text) <|>
        blockless? (trim text)).getD (unknown (String.ofList (trim text))) :=
  rfl

/-- Whether a text is a definition, and of what, does not depend on how its block is
read. -/
theorem definition?_cases (cs : List Char) :
    (∀ block, definition? block cs = none) ∨
      ∃ name body, ∀ block, definition? block cs = some (define name (block body)) := by
  unfold definition?
  cases behindWord? "function" cs with
  | none => exact .inl fun _ => rfl
  | some rest =>
      simp only [Option.bind_eq_bind, Option.bind_some]
      cases Text.startsBlank rest with
      | false => exact .inl fun _ => rfl
      | true =>
          cases splitName? (trimStart rest) with
          | none => exact .inl fun _ => rfl
          | some parts =>
              cases inner : parameterless? parts.2 with
              | none => exact .inl fun _ => by simp [inner]
              | some body =>
                  exact .inr ⟨String.ofList parts.1, body, fun _ => by simp [inner]⟩

/-- A choice is read to a block, a single statement or nothing behind its condition, whatever
reads them. -/
theorem choice?_cases (cs : List Char) :
    (∀ block single, choice? block single cs = none) ∨
      (∃ condition body, ∀ block single,
        choice? block single cs = some (conditional condition (block body))) ∨
      (∃ condition text, ∀ block single,
        choice? block single cs = some (conditional condition [single text])) ∨
      ∃ condition, ∀ block single,
        choice? block single cs = some (conditional condition []) := by
  unfold choice?
  cases behindWord? "if" cs with
  | none => exact .inl fun _ _ => rfl
  | some rest =>
      simp only [Option.bind_eq_bind, Option.bind_some]
      cases Text.startsBlank rest || rest.head? == some '(' with
      | false => exact .inl fun _ _ => rfl
      | true =>
          cases enclosed? '(' ')' (trimStart rest) with
          | none => exact .inl fun _ _ => rfl
          | some parts =>
              obtain ⟨condition, behind⟩ := parts
              cases start : trimStart behind with
              | nil => exact .inr (.inr (.inr ⟨.ofChars condition, fun _ _ => by simp [start]⟩))
              | cons c text =>
                  by_cases brace : c = '{'
                  · subst brace
                    cases inner : block? ('{' :: text) with
                    | none => exact .inl fun _ _ => by simp [start, inner]
                    | some body =>
                        refine .inr (.inl ⟨.ofChars condition, body, fun _ _ => ?_⟩)
                        simp [start, inner]
                  · refine .inr (.inr (.inl ⟨.ofChars condition, c :: text, fun _ _ => ?_⟩))
                    simp [start, brace]

/-- The statement that is read, if there is one, has the property. -/
def Reads (holds : Statement → Prop) (found : Option Statement) : Prop :=
  ∀ statement ∈ found, holds statement

namespace Reads

variable {α : Type} {holds : Statement → Prop}

theorem nothing : Reads holds none := by
  simp [Reads]

theorem just {statement : Statement} (good : holds statement) : Reads holds (some statement) := by
  simpa [Reads] using good

theorem bind (parts : Option α) {form : α → Option Statement}
    (forms : ∀ part ∈ parts, Reads holds (form part)) : Reads holds (parts.bind form) := by
  cases parts with
  | none => exact nothing
  | some part => exact forms part rfl

theorem map (parts : Option α) {form : α → Statement}
    (forms : ∀ part ∈ parts, holds (form part)) : Reads holds (parts.map form) := by
  cases parts with
  | none => exact nothing
  | some part => exact just (forms part rfl)

theorem orElse {first second : Option Statement} (one : Reads holds first)
    (other : Reads holds second) : Reads holds (first <|> second) := by
  cases first with
  | none => exact other
  | some _ => exact one

theorem getD {found : Option Statement} (reads : Reads holds found) (text : String)
    (kept : holds (unknown text)) : holds (found.getD (unknown text)) := by
  cases found with
  | none => exact kept
  | some statement => exact reads statement rfl

end Reads

open Reads (nothing just)

/-- The statement that is read, if there is one, has no block. -/
def ReadsNoBlock (found : Option Statement) : Prop :=
  Reads (·.body = []) found

theorem readsNoBlock_invocation? (cs : List Char) : ReadsNoBlock (invocation? cs) := by
  refine Reads.bind _ fun parts _ => Reads.bind _ fun inside _ => ?_
  split
  · exact just rfl
  · exact nothing

theorem readsNoBlock_declaration? (cs : List Char) : ReadsNoBlock (declaration? cs) := by
  refine Reads.bind _ fun rest _ => ?_
  dsimp only
  split
  · exact nothing
  · refine Reads.bind _ fun parts _ => ?_
    split
    · exact just rfl
    · exact Reads.bind _ fun value _ => just rfl

theorem readsNoBlock_mutation? (cs : List Char) : ReadsNoBlock (mutation? cs) := by
  refine Reads.bind _ fun rest _ => Reads.bind _ fun parts _ => Reads.bind _ fun member _ =>
    Reads.bind _ fun names _ => Reads.bind _ fun value _ => ?_
  split
  · exact Reads.map _ fun _ _ => rfl
  · exact just rfl
  · exact just rfl
  · exact nothing

theorem readsNoBlock_assignment? (cs : List Char) : ReadsNoBlock (assignment? cs) := by
  refine Reads.bind _ fun parts _ => ?_
  dsimp only
  split
  · exact nothing
  · exact Reads.bind _ fun value _ => just rfl

theorem readsNoBlock_blockless? (cs : List Char) : ReadsNoBlock (blockless? cs) :=
  .orElse (.map _ fun _ _ => rfl) <|
    .orElse (.map _ fun _ _ => rfl) <|
      .orElse (readsNoBlock_declaration? cs) <|
        .orElse (readsNoBlock_mutation? cs) (readsNoBlock_assignment? cs)

/-- A text is read without its blocks, or its reading wraps those of the texts in one
block. -/
theorem read_cases (text : List Char) :
    (∃ statement : Statement, statement.body = [] ∧ ∀ room, read (room + 1) text = statement) ∨
      ∃ (wrap : List Statement → Statement) (texts : List (List Char)),
        (∀ statements, (wrap statements).body = statements) ∧
          ∀ room, read (room + 1) text = wrap (texts.map (read room)) := by
  -- the cases come in the order in which the forms are tried
  cases callsAlert : argument? "alert" (trim text) with
  | some message =>
      refine .inl ⟨alert message, rfl, fun room => ?_⟩
      rw [read_succ, callsAlert]
      rfl
  | none =>
      rcases definition?_cases (trim text) with noDefinition | ⟨name, body, defined⟩
      · cases called : invocation? (trim text) with
        | some statement =>
            refine .inl ⟨statement, readsNoBlock_invocation? _ _ called, fun room => ?_⟩
            rw [read_succ, callsAlert, noDefinition, called]
            rfl
        | none =>
            rcases choice?_cases (trim text) with
              noChoice | ⟨condition, body, chosen⟩ | ⟨condition, single, chosen⟩ |
                ⟨condition, chosen⟩
            · have noBlock := readsNoBlock_blockless? (trim text)
              refine .inl ⟨_, noBlock.getD (.ofList (trim text)) rfl, fun room => ?_⟩
              rw [read_succ, callsAlert, noDefinition, called, noChoice]
              rfl
            · refine .inr
                ⟨conditional condition, splitStatements body, fun _ => rfl, fun room => ?_⟩
              rw [read_succ, callsAlert, noDefinition, called, chosen]
              rfl
            · refine .inr ⟨conditional condition, [single], fun _ => rfl, fun room => ?_⟩
              rw [read_succ, callsAlert, noDefinition, called, chosen]
              rfl
            · refine .inl ⟨conditional condition [], rfl, fun room => ?_⟩
              rw [read_succ, callsAlert, noDefinition, called, chosen]
              rfl
      · refine .inr ⟨define name, splitStatements body, fun _ => rfl, fun room => ?_⟩
        rw [read_succ, callsAlert, defined]
        rfl

/-- With more room than a text needs, it is read in the same way. -/
theorem read_eq_of_nesting_lt {room : Nat} {text : List Char}
    (nested : (read (room + 1) text).nesting < room) : read room text = read (room + 1) text := by
  induction room generalizing text with
  | zero => exact absurd nested (Nat.not_lt_zero _)
  | succ room ih =>
      rcases read_cases text with ⟨statement, -, same⟩ | ⟨wrap, texts, block, wrapped⟩
      · rw [same, same]
      · rw [wrapped, nesting_eq_blockNesting_body, block] at nested
        rw [wrapped, wrapped]
        congr 1
        apply List.map_congr_left
        intro inner member
        apply ih
        have all := blockNesting_le_iff.1 (Nat.le_of_lt_succ nested)
        exact all _ (List.mem_map_of_mem member)

/-- The statements in the block of a text are read with less room. -/
theorem exists_body_read (text : List Char) :
    ∃ texts : List (List Char), ∀ room, (read (room + 1) text).body = texts.map (read room) := by
  rcases read_cases text with ⟨statement, empty, same⟩ | ⟨wrap, texts, block, wrapped⟩
  · exact ⟨[], fun room => by rw [same, empty, List.map_nil]⟩
  · exact ⟨texts, fun room => by rw [wrapped, block]⟩

end Statement

open Statement (read body)

/-- The statements that stand inside exactly so many blocks. -/
def insideBlocks : Nat → List Statement → List Statement
  | 0, statements => statements
  | blocks + 1, statements => insideBlocks blocks (statements.flatMap body)

@[simp] theorem insideBlocks_nil (blocks : Nat) : insideBlocks blocks [] = [] := by
  induction blocks with
  | zero => rfl
  | succ blocks ih => exact ih

theorem insideBlocks_subset {statements others : List Statement} (subset : statements ⊆ others)
    (blocks : Nat) : insideBlocks blocks statements ⊆ insideBlocks blocks others := by
  induction blocks generalizing statements others with
  | zero => exact subset
  | succ blocks ih =>
      apply ih
      intro inner inside
      obtain ⟨statement, member, within⟩ := List.mem_flatMap.1 inside
      exact List.mem_flatMap.2 ⟨statement, subset member, within⟩

/-- Statements inside some blocks stand inside more when these stand inside others. -/
theorem insideBlocks_add (outer inner : Nat) (statements : List Statement) :
    insideBlocks (outer + inner) statements =
      insideBlocks inner (insideBlocks outer statements) := by
  induction outer generalizing statements with
  | zero => rw [Nat.zero_add, insideBlocks]
  | succ outer ih => rw [Nat.add_right_comm, insideBlocks, insideBlocks, ih]

/-- Where the room ends, statements are kept as text. -/
theorem exists_unknown_of_mem_insideBlocks {room : Nat} {texts : List (List Char)}
    {statement : Statement} (inside : statement ∈ insideBlocks room (texts.map (read room))) :
    ∃ text, statement = .unknown text := by
  induction room generalizing texts with
  | zero =>
      obtain ⟨text, -, rfl⟩ := List.mem_map.1 inside
      exact ⟨_, rfl⟩
  | succ room ih =>
      choose block blocks using Statement.exists_body_read
      have below : (texts.map (read (room + 1))).flatMap body =
          (texts.flatMap block).map (read room) := by
        simp only [List.flatMap_map, List.map_flatMap, blocks]
      rw [insideBlocks, below] at inside
      exact ih inside

/-- Nothing is read beyond the room for blocks. -/
theorem le_of_mem_insideBlocks {room blocks : Nat} {texts : List (List Char)}
    {statement : Statement}
    (inside : statement ∈ insideBlocks blocks (texts.map (read room))) : blocks ≤ room := by
  by_contra beyond
  obtain ⟨further, rfl⟩ : ∃ further, blocks = room + (further + 1) :=
    ⟨blocks - room - 1, by omega⟩
  have empty : (insideBlocks room (texts.map (read room))).flatMap body = [] := by
    refine List.flatMap_eq_nil_iff.2 fun last member => ?_
    obtain ⟨text, rfl⟩ := exists_unknown_of_mem_insideBlocks member
    rfl
  rw [insideBlocks_add, insideBlocks, empty, insideBlocks_nil] at inside
  exact List.not_mem_nil inside

end Script
end Pagelet
