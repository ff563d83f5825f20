import Pagelet.Script.Statement.Splitting

/-!
# Nesting of script text

A text is followed by the nesting that a scanner reaches behind it.  A text that
closes only brackets it has opened itself is read in the same way within any
further brackets, and the bracket matcher finds its partner behind such a text.
-/

namespace Pagelet
namespace Script

open Text (Quotation)

/-- The kinds of bracket that are counted in scripts. -/
inductive Bracket
  | brace
  | paren
deriving DecidableEq, Repr

namespace Bracket

/-- The opening bracket of a pair. -/
def opening : Bracket → Char
  | brace => '{'
  | paren => '('

/-- The closing bracket of a pair. -/
def closing : Bracket → Char
  | brace => '}'
  | paren => ')'

/-- A text between a pair of brackets. -/
def around (bracket : Bracket) (cs : List Char) : List Char :=
  bracket.opening :: (cs ++ [bracket.closing])

theorem closing_unmarked (bracket : Bracket) : marks.contains bracket.closing = false := by
  cases bracket <;> decide

theorem closing_ne_opening (bracket : Bracket) : bracket.closing ≠ bracket.opening := by
  cases bracket <;> decide

end Bracket

/-- A character that opens and closes neither strings nor brackets. -/
def isInert (c : Char) : Bool :=
  !(['\'', '"', '\x60', '(', ')', '{', '}'].contains c)

theorem unmarked_of_isInert {c : Char} (inert : isInert c = true) :
    marks.contains c = false := by
  simp only [isInert, marks, List.contains_cons, Bool.not_eq_true', Bool.or_eq_false_iff]
    at inert ⊢
  exact ⟨inert.1, inert.2.1, inert.2.2.1, rfl⟩

theorem isInert_of_isBlank {c : Char} (blank : Text.isBlank c = true) : isInert c = true := by
  cases opens : isInert c with
  | true => rfl
  | false =>
      simp only [isInert, Bool.not_eq_false', List.contains_iff_mem, List.mem_cons,
        List.not_mem_nil, or_false] at opens
      rcases opens with rfl | rfl | rfl | rfl | rfl | rfl | rfl <;> cases blank

theorem Bracket.ne_of_isInert {c : Char} (inert : isInert c = true) (bracket : Bracket) :
    c ≠ bracket.opening ∧ c ≠ bracket.closing := by
  constructor <;> rintro rfl <;> cases bracket <;> cases inert

/-- Every character outside strings has the property. -/
def AllUnquoted (holds : Char → Prop) : Quotation → List Char → Prop
  | _, [] => True
  | state, c :: rest =>
      (state.covers marks c = false → holds c) ∧ AllUnquoted holds (state.next marks c) rest

namespace AllUnquoted

variable {holds weaker : Char → Prop} {state : Quotation} {cs front back : List Char}

theorem of_forall (all : ∀ c ∈ cs, holds c) : AllUnquoted holds state cs := by
  induction cs generalizing state with
  | nil => trivial
  | cons c cs ih =>
      obtain ⟨first, others⟩ := List.forall_mem_cons.1 all
      exact ⟨fun _ => first, ih others⟩

theorem imp (all : AllUnquoted holds state cs) (implies : ∀ c, holds c → weaker c) :
    AllUnquoted weaker state cs := by
  induction cs generalizing state with
  | nil => trivial
  | cons c cs ih => exact ⟨fun uncovered => implies c (all.1 uncovered), ih all.2⟩

theorem append (first : AllUnquoted holds state front)
    (second : AllUnquoted holds (state.after marks front) back) :
    AllUnquoted holds state (front ++ back) := by
  induction front generalizing state with
  | nil => exact second
  | cons c front ih => exact ⟨first.1, ih first.2 second⟩

end AllUnquoted

namespace Nesting

variable {nesting : Nesting} {bracket other : Bracket} {c : Char} {cs front back : List Char}

/-- The nesting after a whole text. -/
def after (nesting : Nesting) (cs : List Char) : Nesting :=
  cs.foldl next nesting

@[simp]
theorem after_nil (nesting : Nesting) : nesting.after [] = nesting :=
  rfl

@[simp]
theorem after_cons (nesting : Nesting) (c : Char) (cs : List Char) :
    nesting.after (c :: cs) = (nesting.next c).after cs :=
  rfl

@[simp]
theorem after_append (nesting : Nesting) (front back : List Char) :
    nesting.after (front ++ back) = (nesting.after front).after back :=
  List.foldl_append

/-- How many brackets of a kind are open. -/
def count (nesting : Nesting) : Bracket → Nat
  | .brace => nesting.braces
  | .paren => nesting.parens

/-- The nesting with a number of further brackets open. -/
def within (nesting : Nesting) (further : Nat) : Bracket → Nesting
  | .brace => { nesting with braces := nesting.braces + further }
  | .paren => { nesting with parens := nesting.parens + further }

@[simp]
theorem within_quotation (nesting : Nesting) (further : Nat) (bracket : Bracket) :
    (nesting.within further bracket).quotation = nesting.quotation := by
  cases bracket <;> rfl

theorem count_within_self (nesting : Nesting) (further : Nat) (bracket : Bracket) :
    (nesting.within further bracket).count bracket = nesting.count bracket + further := by
  cases bracket <;> rfl

theorem count_le_count_within (nesting : Nesting) (further : Nat) (bracket other : Bracket) :
    nesting.count other ≤ (nesting.within further bracket).count other := by
  cases bracket <;> cases other <;> simp [count, within]

/-- It does not matter in which order brackets are counted. -/
theorem within_comm (nesting : Nesting) (further more : Nat) (bracket other : Bracket) :
    (nesting.within further bracket).within more other =
      (nesting.within more other).within further bracket := by
  cases bracket <;> cases other <;> simp [within, Nat.add_right_comm]

theorem isFlat_within (nesting : Nesting) (more : Nat) (bracket : Bracket) :
    (nesting.within (more + 1) bracket).isFlat = false := by
  cases bracket <;> simp [isFlat, within]

theorem exists_within_one (opened : 0 < nesting.count bracket) :
    ∃ outer : Nesting, nesting = outer.within 1 bracket := by
  obtain ⟨quotation, braces, parens⟩ := nesting
  cases bracket with
  | brace =>
      have one : 1 ≤ braces := opened
      exact ⟨⟨quotation, braces - 1, parens⟩, by rw [within, Nat.sub_add_cancel one]⟩
  | paren =>
      have one : 1 ≤ parens := opened
      exact ⟨⟨quotation, braces, parens - 1⟩, by rw [within, Nat.sub_add_cancel one]⟩

@[simp]
theorem next_quotation (nesting : Nesting) (c : Char) :
    (nesting.next c).quotation = nesting.quotation.next marks c := by
  unfold next
  split
  · rfl
  · dsimp only
    split <;> rfl

@[simp]
theorem after_quotation (nesting : Nesting) (cs : List Char) :
    (nesting.after cs).quotation = nesting.quotation.after marks cs := by
  induction cs generalizing nesting with
  | nil => rfl
  | cons c cs ih => rw [after_cons, ih, next_quotation, Quotation.after_cons]

/-- A text behind which nothing is open ends outside strings. -/
theorem quotation_of_settles (settles : ({} : Nesting).after cs = {}) :
    Quotation.outside.after marks cs = .outside := by
  have whole := after_quotation {} cs
  rw [settles] at whole
  exact whole.symm

theorem next_of_covers (covered : nesting.quotation.covers marks c = true) :
    nesting.next c = { nesting with quotation := nesting.quotation.next marks c } := by
  unfold next
  exact if_pos covered

/-- An opening bracket outside strings is counted. -/
theorem next_opening (outside : nesting.quotation = .outside) (bracket : Bracket) :
    nesting.next bracket.opening = nesting.within 1 bracket := by
  obtain ⟨quotation, braces, parens⟩ := nesting
  cases outside
  cases bracket <;> rfl

/-- A closing bracket outside strings undoes the opening one. -/
theorem next_closing (outside : nesting.quotation = .outside) (bracket : Bracket) :
    (nesting.within 1 bracket).next bracket.closing = nesting := by
  obtain ⟨quotation, braces, parens⟩ := nesting
  cases outside
  cases bracket <;> rfl

/-- An inert character outside strings changes nothing. -/
theorem next_of_isInert (outside : nesting.quotation = .outside) (inert : isInert c = true) :
    nesting.next c = nesting := by
  have unmarked := unmarked_of_isInert inert
  have brace := Bracket.ne_of_isInert inert .brace
  have paren := Bracket.ne_of_isInert inert .paren
  obtain ⟨quotation, braces, parens⟩ := nesting
  cases outside
  have stays : Quotation.outside.next marks c = .outside := by
    rw [Quotation.next, unmarked]
    rfl
  simp only [Bracket.opening, Bracket.closing] at brace paren
  simp [next, Quotation.covers, stays, brace, paren]

/-- A character outside strings opens a bracket, closes one, or does neither. -/
theorem cases_of_unmarked (unmarked : marks.contains c = false) :
    (∃ bracket : Bracket, c = bracket.opening) ∨ (∃ bracket : Bracket, c = bracket.closing) ∨
      isInert c = true := by
  by_cases openBrace : c = '{'
  · exact .inl ⟨.brace, openBrace⟩
  by_cases openParen : c = '('
  · exact .inl ⟨.paren, openParen⟩
  by_cases closeBrace : c = '}'
  · exact .inr (.inl ⟨.brace, closeBrace⟩)
  by_cases closeParen : c = ')'
  · exact .inr (.inl ⟨.paren, closeParen⟩)
  refine .inr (.inr ?_)
  simp only [marks, List.contains_cons, Bool.or_eq_false_iff, beq_eq_false_iff_ne] at unmarked
  simpa [isInert, openBrace, openParen, closeBrace, closeParen] using
    ⟨unmarked.1, unmarked.2.1, unmarked.2.2.1⟩

/-- Further brackets are left alone, unless one of them is closed. -/
theorem next_within
    (closes : c = bracket.closing → nesting.quotation.covers marks c = false →
      0 < nesting.count bracket) (further : Nat) :
    (nesting.within further bracket).next c = (nesting.next c).within further bracket := by
  cases covered : nesting.quotation.covers marks c with
  | true =>
      have also : (nesting.within further bracket).quotation.covers marks c = true := by
        rw [within_quotation, covered]
      rw [next_of_covers covered, next_of_covers also]
      cases bracket <;> rfl
  | false =>
      obtain ⟨outside, -⟩ := Quotation.next_of_not_covers covered
      have alsoOutside := (within_quotation nesting further bracket).trans outside
      have unmarked : marks.contains c = false := by
        rw [outside] at covered
        exact covered
      rcases cases_of_unmarked unmarked with ⟨other, rfl⟩ | ⟨other, rfl⟩ | inert
      · rw [next_opening outside, next_opening alsoOutside, within_comm]
      · -- a count stops at zero, so a closing bracket needs one of its own to close
        by_cases same : other = bracket
        · subst same
          obtain ⟨inner, rfl⟩ := exists_within_one (closes rfl covered)
          rw [within_quotation] at outside
          rw [within_comm, next_closing outside, next_closing]
          rw [within_quotation, outside]
        · obtain ⟨quotation, braces, parens⟩ := nesting
          cases outside
          cases bracket <;> cases other <;> first | rfl | exact absurd rfl same
      · rw [next_of_isInert outside inert, next_of_isInert alsoOutside inert]

theorem count_next_of_covers (covered : nesting.quotation.covers marks c = true)
    (bracket : Bracket) : (nesting.next c).count bracket = nesting.count bracket := by
  rw [next_of_covers covered]
  cases bracket <;> rfl

theorem count_next_opening (uncovered : nesting.quotation.covers marks c = false)
    (opening : c = bracket.opening) :
    (nesting.next c).count bracket = nesting.count bracket + 1 := by
  obtain ⟨outside, -⟩ := Quotation.next_of_not_covers uncovered
  rw [opening, next_opening outside, count_within_self]

theorem count_next_closing (uncovered : nesting.quotation.covers marks c = false)
    (closing : c = bracket.closing) :
    (nesting.next c).count bracket = nesting.count bracket - 1 := by
  obtain ⟨outside, -⟩ := Quotation.next_of_not_covers uncovered
  obtain ⟨quotation, braces, parens⟩ := nesting
  cases outside
  subst closing
  cases bracket <;> rfl

theorem count_next_other (uncovered : nesting.quotation.covers marks c = false)
    (notOpening : c ≠ bracket.opening) (notClosing : c ≠ bracket.closing) :
    (nesting.next c).count bracket = nesting.count bracket := by
  obtain ⟨outside, -⟩ := Quotation.next_of_not_covers uncovered
  have unmarked : marks.contains c = false := by
    rw [outside] at uncovered
    exact uncovered
  obtain ⟨quotation, braces, parens⟩ := nesting
  cases outside
  rcases cases_of_unmarked unmarked with ⟨other, rfl⟩ | ⟨other, rfl⟩ | inert
  · cases bracket <;> cases other <;> first | rfl | exact absurd rfl notOpening
  · cases bracket <;> cases other <;> first | rfl | exact absurd rfl notClosing
  · rw [next_of_isInert rfl inert]

/-! ## Texts that close their own brackets -/

/-- Every bracket of the kind that closes outside strings has a partner. -/
def ClosesOpen (bracket : Bracket) : Nesting → List Char → Prop
  | _, [] => True
  | nesting, c :: rest =>
      (c = bracket.closing → nesting.quotation.covers marks c = false →
        0 < nesting.count bracket) ∧ ClosesOpen bracket (nesting.next c) rest

instance decidableClosesOpen (bracket : Bracket) :
    (nesting : Nesting) → (cs : List Char) → Decidable (ClosesOpen bracket nesting cs)
  | _, [] => isTrue trivial
  | nesting, c :: rest =>
      have := decidableClosesOpen bracket (nesting.next c) rest
      inferInstanceAs (Decidable (_ ∧ _))

/-- Where no bracket is closed outside strings, none is closed that was not opened. -/
theorem closesOpen_of_allUnquoted
    (others : AllUnquoted (· ≠ bracket.closing) nesting.quotation cs) :
    ClosesOpen bracket nesting cs := by
  induction cs generalizing nesting with
  | nil => trivial
  | cons c cs ih =>
      refine ⟨fun closing uncovered => absurd closing (others.1 uncovered), ih ?_⟩
      rw [next_quotation]
      exact others.2

/-- Without brackets outside strings, the counts stay as they are. -/
theorem after_of_allUnquoted (inert : AllUnquoted (isInert · = true) nesting.quotation cs) :
    nesting.after cs = { nesting with quotation := nesting.quotation.after marks cs } := by
  induction cs generalizing nesting with
  | nil => rfl
  | cons c cs ih =>
      have stays : nesting.next c =
          { nesting with quotation := nesting.quotation.next marks c } := by
        cases covered : nesting.quotation.covers marks c with
        | true => exact next_of_covers covered
        | false =>
            obtain ⟨outside, still⟩ := Quotation.next_of_not_covers covered
            rw [next_of_isInert outside (inert.1 covered), still, ← outside]
      rw [after_cons, stays]
      exact ih inert.2

/-- Two texts close no bracket of the first nesting if neither part does. -/
theorem closesOpen_append : ClosesOpen bracket nesting (front ++ back) ↔
    ClosesOpen bracket nesting front ∧ ClosesOpen bracket (nesting.after front) back := by
  induction front generalizing nesting with
  | nil => simp [ClosesOpen]
  | cons c front ih =>
      rw [List.cons_append, ClosesOpen, ClosesOpen, after_cons, ih, and_assoc]

/-- Within further brackets of the kind, the text reaches the same place. -/
theorem after_within (closes : ClosesOpen bracket nesting cs) (further : Nat) :
    (nesting.within further bracket).after cs = (nesting.after cs).within further bracket := by
  induction cs generalizing nesting with
  | nil => rfl
  | cons c cs ih => rw [after_cons, after_cons, next_within closes.1, ih closes.2]

theorem ClosesOpen.within (closes : ClosesOpen bracket nesting cs)
    (others : ClosesOpen other nesting cs) (further : Nat) :
    ClosesOpen bracket (nesting.within further other) cs := by
  induction cs generalizing nesting with
  | nil => trivial
  | cons c cs ih =>
      rw [ClosesOpen, next_within others.1]
      refine ⟨?_, ih closes.2 others.2⟩
      intro closing uncovered
      rw [within_quotation] at uncovered
      exact Nat.lt_of_lt_of_le (closes.1 closing uncovered) (count_le_count_within _ _ _ _)

end Nesting

open Nesting

variable {bracket : Bracket} {nesting : Nesting} {cs front back : List Char}

/-- The text closes the brackets of the kind that it opens and no others, and a
scanner that begins in the open ends there. -/
structure Closed (bracket : Bracket) (cs : List Char) : Prop where
  /-- No bracket of the kind is closed that was not opened. -/
  closes : ClosesOpen bracket {} cs
  /-- Behind the text, no string and no bracket is open. -/
  settles : ({} : Nesting).after cs = {}

/-- Two closed texts are closed together. -/
theorem Closed.append (first : Closed bracket front) (second : Closed bracket back) :
    Closed bracket (front ++ back) := by
  constructor
  · rw [closesOpen_append, first.settles]
    exact ⟨first.closes, second.closes⟩
  · rw [after_append, first.settles, second.settles]

/-- A closed text ends outside strings. -/
theorem Closed.after_quotation (closed : Closed bracket cs) :
    Quotation.outside.after marks cs = .outside :=
  quotation_of_settles closed.settles

/-- The text closes the brackets of every kind that it opens, and no others. -/
def Balanced (cs : List Char) : Prop :=
  ∀ bracket, Closed bracket cs

namespace Balanced

theorem eq_within (outside : nesting.quotation = .outside) :
    nesting = (({} : Nesting).within nesting.braces .brace).within nesting.parens .paren := by
  obtain ⟨quotation, braces, parens⟩ := nesting
  cases outside
  simp [within]

/-- A balanced text leads back to where it began. -/
theorem after (balanced : Balanced cs) (outside : nesting.quotation = .outside) :
    nesting.after cs = nesting := by
  have brace := balanced .brace
  have paren := balanced .paren
  rw [eq_within outside, after_within (paren.closes.within brace.closes _),
    after_within brace.closes, brace.settles]

/-- A balanced text closes no bracket that it did not open. -/
theorem closesOpen (balanced : Balanced cs) (outside : nesting.quotation = .outside)
    (bracket : Bracket) : ClosesOpen bracket nesting cs := by
  have closes := fun bracket => (balanced bracket).closes
  rw [eq_within outside]
  exact ((closes _).within (closes _) _).within ((closes _).within (closes _) _) _

theorem after_quotation (balanced : Balanced cs) :
    Quotation.outside.after marks cs = .outside :=
  (balanced .brace).after_quotation

theorem nil : Balanced [] := by
  intro bracket
  exact ⟨trivial, rfl⟩

theorem append (first : Balanced front) (second : Balanced back) :
    Balanced (front ++ back) := by
  intro bracket
  exact (first bracket).append (second bracket)

/-- A text without brackets is balanced if it closes its strings. -/
theorem of_allUnquoted (inert : AllUnquoted (isInert · = true) .outside cs)
    (ends : Quotation.outside.after marks cs = .outside) : Balanced cs := by
  intro bracket
  constructor
  · apply closesOpen_of_allUnquoted
    apply inert.imp
    intro c first
    exact (bracket.ne_of_isInert first).2
  · rw [after_of_allUnquoted inert, ends]

theorem of_isInert (inert : ∀ c ∈ cs, isInert c = true) : Balanced cs := by
  apply of_allUnquoted (.of_forall inert)
  induction cs with
  | nil => rfl
  | cons c cs ih =>
      obtain ⟨first, others⟩ := List.forall_mem_cons.1 inert
      rw [Quotation.after_cons, Quotation.next, unmarked_of_isInert first]
      exact ih others

theorem of_isBlankText (blank : ∀ c ∈ cs, Text.isBlank c = true) : Balanced cs := by
  apply of_isInert
  intro c member
  exact isInert_of_isBlank (blank c member)

/-- A balanced text stays balanced in brackets. -/
theorem around (balanced : Balanced cs) (outer : Bracket) : Balanced (outer.around cs) := by
  intro bracket
  have opened : ({} : Nesting).next outer.opening = ({} : Nesting).within 1 outer :=
    next_opening rfl outer
  have outside : (({} : Nesting).within 1 outer).quotation = .outside :=
    within_quotation _ _ _
  constructor
  · rw [Bracket.around, ClosesOpen, opened, closesOpen_append, balanced.after outside]
    refine ⟨?_, balanced.closesOpen outside bracket, ?_, trivial⟩
    · intro closing
      cases outer <;> cases bracket <;> cases closing
    · intro closing _
      cases outer <;> cases bracket <;> first | exact Nat.one_pos | cases closing
  · rw [Bracket.around, after_cons, opened, after_append, balanced.after outside, after_cons,
      next_closing rfl outer, after_nil]

end Balanced

/-- The matcher reads on behind a text that closes its own brackets, with as many
brackets open as the scanner counts. -/
theorem closeFrom_append (closes : ClosesOpen bracket nesting front) (back : List Char) :
    closeFrom bracket.opening bracket.closing (nesting.count bracket) nesting.quotation
        (front ++ back) =
      (closeFrom bracket.opening bracket.closing ((nesting.after front).count bracket)
        (nesting.after front).quotation back).map
          fun (inside, behind) => (front ++ inside, behind) := by
  induction front generalizing nesting with
  | nil => simp
  | cons c front ih =>
      obtain ⟨opened, closes⟩ := closes
      rw [List.cons_append, closeFrom.eq_def, after_cons]
      dsimp only
      have step := ih closes
      rw [next_quotation] at step
      -- whatever the character does, the depth is the count of the nesting behind it
      have others : ∀ depth, depth = (nesting.next c).count bracket →
          (closeFrom bracket.opening bracket.closing depth (nesting.quotation.next marks c)
            (front ++ back)).map (fun (inside, behind) => (c :: inside, behind)) =
          (closeFrom bracket.opening bracket.closing
            (((nesting.next c).after front).count bracket)
            ((nesting.next c).after front).quotation back).map
              fun (inside, behind) => (c :: front ++ inside, behind) := by
        rintro depth rfl
        rw [step, Option.map_map]
        rfl
      split
      · next covered => exact others _ (count_next_of_covers covered bracket).symm
      · next uncovered =>
        rw [Bool.not_eq_true] at uncovered
        split
        · next opening => exact others _ (count_next_opening uncovered opening).symm
        · next notOpening =>
          split
          · next closing =>
            have fewer := count_next_closing uncovered closing
            split
            · next empty =>
              have some := opened closing uncovered
              exact absurd (empty ▸ some) (Nat.lt_irrefl 0)
            · next depth more =>
              apply others
              rw [fewer, more]
              rfl
          · next notClosing =>
            exact others _ (count_next_other uncovered notOpening notClosing).symm

/-- The matcher finds the partner of a bracket behind what the two enclose. -/
theorem enclosed?_around (closed : Closed bracket cs) (behind : List Char) :
    enclosed? bracket.opening bracket.closing (bracket.around cs ++ behind) =
      some (cs, behind) := by
  rw [Bracket.around, List.cons_append, enclosed?, if_pos rfl, List.append_assoc]
  have found := closeFrom_append closed.closes ([bracket.closing] ++ behind)
  rw [closed.settles] at found
  have zero : ({} : Nesting).count bracket = 0 := by cases bracket <;> rfl
  rw [zero] at found
  apply found.trans
  have uncovered : Quotation.outside.covers marks bracket.closing = false :=
    bracket.closing_unmarked
  rw [List.singleton_append, closeFrom.eq_def]
  simp [uncovered, bracket.closing_ne_opening]

end Script
end Pagelet
