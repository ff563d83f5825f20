import Pagelet.Proofs.Statement.Nesting
import Pagelet.Proofs.Text.Trimming

/-!
# Pieces of a script

The pieces of two texts one after the other are those of each, with the last
piece of the first joined to the first piece of the second.  Nothing is cut
within brackets, and blanks around a script take no part in its statements.
-/

namespace Pagelet
namespace Script

open Text (isBlank IsBlankText trim)

variable {nesting : Nesting} {bracket : Bracket} {c : Char} {cs front back tail : List Char}
  {texts others : List (List Char)}

/-- Two lists of texts as one, with a single text where they meet. -/
def glue : List (List Char) → List (List Char) → List (List Char)
  | [], others => others
  | [last], others => others.modifyHead (last ++ ·)
  | text :: next :: more, others => text :: glue (next :: more) others

theorem glue_cons (notEmpty : texts ≠ []) (text : List Char) (others : List (List Char)) :
    glue (text :: texts) others = text :: glue texts others := by
  obtain ⟨next, more, rfl⟩ := List.exists_cons_of_ne_nil notEmpty
  rfl

theorem glue_modifyHead (notEmpty : texts ≠ []) (c : Char) (others : List (List Char)) :
    glue (texts.modifyHead (c :: ·)) others = (glue texts others).modifyHead (c :: ·) := by
  match texts, notEmpty with
  | [last], _ => cases others <;> rfl
  | first :: next :: more, _ => rfl

/-- Texts do not meet where the second list begins with an empty text. -/
theorem glue_nil_cons (notEmpty : texts ≠ []) (others : List (List Char)) :
    glue texts ([] :: others) = texts ++ others := by
  induction texts with
  | nil => exact absurd rfl notEmpty
  | cons text texts ih =>
      cases texts with
      | nil => rw [glue, List.modifyHead_cons, List.append_nil, List.singleton_append]
      | cons next more => rw [glue, ih (List.cons_ne_nil _ _)]; rfl

/-- There is always a piece, if only an empty one. -/
theorem pieces_ne_nil (nesting : Nesting) (cs : List Char) : pieces nesting cs ≠ [] := by
  induction cs generalizing nesting with
  | nil => exact List.cons_ne_nil _ _
  | cons c cs ih =>
      rw [pieces]
      split
      · exact List.cons_ne_nil _ _
      · split
        · exact List.cons_ne_nil _ _
        · obtain ⟨first, others, equal⟩ := List.exists_cons_of_ne_nil (ih (nesting.next c))
          rw [equal]
          exact List.cons_ne_nil _ _

/-- Two texts are cut apart like one, but for the pieces that meet. -/
theorem pieces_append (nesting : Nesting) (front back : List Char) :
    pieces nesting (front ++ back) =
      glue (pieces nesting front) (pieces (nesting.after front) back) := by
  induction front generalizing nesting with
  | nil => exact (congrFun List.modifyHead_id _).symm
  | cons c front ih =>
      rw [List.cons_append, pieces, pieces, ih, Nesting.after_cons]
      split
      · rw [glue_cons (pieces_ne_nil _ _)]
      · split
        · rw [glue_cons (pieces_ne_nil _ _)]
        · rw [glue_modifyHead (pieces_ne_nil _ _)]

/-- Nothing but separators is lost in the pieces. -/
theorem flatten_pieces_sublist (nesting : Nesting) (cs : List Char) :
    (pieces nesting cs).flatten.Sublist cs := by
  induction cs generalizing nesting with
  | nil => exact .slnil
  | cons c cs ih =>
      rw [pieces]
      split
      · exact (ih _).cons c
      · split
        · exact (ih _).cons_cons c
        · obtain ⟨first, others, equal⟩ := List.exists_cons_of_ne_nil (pieces_ne_nil _ cs)
          have inner := ih (nesting.next c)
          rw [equal] at inner ⊢
          exact inner.cons_cons c

theorem isBlankText_of_mem_pieces {text : List Char} (blank : IsBlankText cs)
    (member : text ∈ pieces nesting cs) : IsBlankText text := by
  intro c inText
  apply blank
  apply (flatten_pieces_sublist nesting cs).subset
  exact List.mem_flatten.2 ⟨text, member, inText⟩

/-- Every line end of the text stands within a string or a bracket. -/
def EnclosesLineEnds : Nesting → List Char → Prop
  | _, [] => True
  | nesting, c :: rest =>
      (c = '\n' → nesting.isFlat = false) ∧ EnclosesLineEnds (nesting.next c) rest

instance decidableEnclosesLineEnds :
    (nesting : Nesting) → (cs : List Char) → Decidable (EnclosesLineEnds nesting cs)
  | _, [] => isTrue trivial
  | nesting, c :: rest =>
      have := decidableEnclosesLineEnds (nesting.next c) rest
      inferInstanceAs (Decidable (_ ∧ _))

theorem enclosesLineEnds_of_not_mem (notMem : '\n' ∉ cs) : EnclosesLineEnds nesting cs := by
  induction cs generalizing nesting with
  | nil => trivial
  | cons c cs ih =>
      rw [List.mem_cons, not_or] at notMem
      exact ⟨fun lineEnd => absurd lineEnd.symm notMem.1, ih notMem.2⟩

/-- The text is not cut. -/
def Uncut (nesting : Nesting) (cs : List Char) : Prop :=
  pieces nesting cs = [cs]

namespace Uncut

theorem nil (nesting : Nesting) : Uncut nesting [] :=
  rfl

theorem cons (apart : nesting.separates c = false) (open_ : nesting.closesBlock c = false)
    (uncut : Uncut (nesting.next c) cs) : Uncut nesting (c :: cs) := by
  rw [Uncut, pieces, uncut, apart, open_]
  rfl

/-- A text that is not cut stays in front of the first piece. -/
theorem pieces_append (uncut : Uncut nesting front) (back : List Char) :
    pieces nesting (front ++ back) =
      (pieces (nesting.after front) back).modifyHead (front ++ ·) := by
  rw [Script.pieces_append, uncut, glue]

/-- A text is not cut if neither part is. -/
theorem append (first : Uncut nesting front) (second : Uncut (nesting.after front) back) :
    Uncut nesting (front ++ back) := by
  rw [Uncut, first.pieces_append, second, List.modifyHead_cons]

/-- Within a bracket nothing is cut, as long as it is not closed. -/
theorem within (closes : nesting.ClosesOpen bracket cs) (more : Nat) :
    Uncut (nesting.within (more + 1) bracket) cs := by
  induction cs generalizing nesting with
  | nil => exact nil _
  | cons c cs ih =>
      have step := Nesting.next_within closes.1 (more + 1)
      refine cons ?_ ?_ ?_
      · rw [Nesting.separates, Nesting.isFlat_within, Bool.false_and]
      · rw [Nesting.closesBlock, step, Nesting.isFlat_within, Bool.and_false]
      · rw [step]
        exact ih closes.2

theorem of_isInert (outside : nesting.quotation = .outside)
    (inert : ∀ c ∈ cs, isInert c = true ∧ c ≠ ';' ∧ c ≠ '\n') : Uncut nesting cs := by
  induction cs with
  | nil => exact nil _
  | cons c cs ih =>
      obtain ⟨⟨first, noSemicolon, noLineEnd⟩, others⟩ := List.forall_mem_cons.1 inert
      refine cons ?_ ?_ ?_
      · simp [Nesting.separates, noSemicolon, noLineEnd]
      · have noBrace : c ≠ '}' := (Bracket.ne_of_isInert first .brace).2
        simp [Nesting.closesBlock, noBrace]
      · rw [Nesting.next_of_isInert outside first]
        exact ih others

/-- Without semicolons and closing braces, a text is cut at its line ends only. -/
theorem of_allUnquoted
    (others : AllUnquoted (fun c => c ≠ ';' ∧ c ≠ '}') nesting.quotation cs)
    (encloses : EnclosesLineEnds nesting cs) : Uncut nesting cs := by
  induction cs generalizing nesting with
  | nil => exact nil _
  | cons c cs ih =>
      refine cons ?_ ?_ (ih ?_ encloses.2)
      · cases flat : nesting.isFlat with
        | false => rw [Nesting.separates, flat, Bool.false_and]
        | true =>
            have noLineEnd : c ≠ '\n' := by
              rintro rfl
              exact absurd (flat.symm.trans (encloses.1 rfl)) (by simp)
            have noSemicolon : c ≠ ';' := by
              rintro rfl
              simp only [Nesting.isFlat, Bool.and_eq_true, beq_iff_eq] at flat
              have uncovered : nesting.quotation.covers marks ';' = false := by
                rw [flat.1.1]
                rfl
              exact (others.1 uncovered).1 rfl
            simp [Nesting.separates, noLineEnd, noSemicolon]
      · rw [Nesting.closesBlock]
        cases covered : nesting.quotation.covers marks c with
        | true => simp
        | false => simp [(others.1 covered).2]
      · rw [Nesting.next_quotation]
        exact others.2

/-- A text between parentheses is not cut. -/
theorem around_paren (closed : Closed .paren cs) : Uncut {} (Bracket.paren.around cs) := by
  have inside : Uncut (({} : Nesting).within 1 .paren) cs := within closed.closes 0
  refine cons rfl rfl (inside.append ?_)
  rw [Nesting.after_within closed.closes, closed.settles]
  exact cons rfl rfl (nil _)

end Uncut

/-- The texts that are not blank, without blanks at their ends. -/
def solid (texts : List (List Char)) : List (List Char) :=
  (texts.map trim).filter (!·.isEmpty)

/-- The statements are what is visible of the pieces. -/
theorem splitStatements_eq (source : List Char) :
    splitStatements source = solid (pieces {} (dropComments (.code .outside) source)) :=
  rfl

theorem solid_cons (text : List Char) (texts : List (List Char)) :
    solid (text :: texts) = solid [text] ++ solid texts := by
  simp only [solid, ← List.filter_append, List.map_cons, List.map_nil, List.singleton_append]

theorem solid_append (texts others : List (List Char)) :
    solid (texts ++ others) = solid texts ++ solid others := by
  simp only [solid, List.map_append, List.filter_append]

theorem solid_of_blank (blank : IsBlankText cs) : solid [cs] = [] := by
  simp [solid, Text.trim_eq_nil blank]

theorem solid_of_trimmed (trimmed : trim cs = cs) (notEmpty : cs ≠ []) : solid [cs] = [cs] := by
  simp [solid, trimmed, notEmpty]

theorem solid_eq_nil (blank : ∀ text ∈ texts, IsBlankText text) : solid texts = [] := by
  induction texts with
  | nil => rfl
  | cons text texts ih =>
      obtain ⟨first, others⟩ := List.forall_mem_cons.1 blank
      rw [solid_cons, solid_of_blank first, ih others, List.nil_append]

/-- Blanks around a piece do not count. -/
theorem solid_blank_append (lead : IsBlankText front) (tail : IsBlankText back) :
    solid [front ++ cs ++ back] = solid [cs] := by
  simp only [solid, List.map_cons, Text.trim_append lead tail]

/-- Blank pieces behind add no statement. -/
theorem solid_glue_blank (notEmpty : others ≠ []) (blank : ∀ text ∈ others, IsBlankText text) :
    solid (glue texts others) = solid texts := by
  induction texts with
  | nil => exact solid_eq_nil blank
  | cons text texts ih =>
      cases texts with
      | nil =>
          obtain ⟨first, rest, rfl⟩ := List.exists_cons_of_ne_nil notEmpty
          obtain ⟨firstBlank, restBlank⟩ := List.forall_mem_cons.1 blank
          rw [glue, List.modifyHead_cons, solid_cons, solid_eq_nil restBlank, List.append_nil]
          exact solid_blank_append Text.isBlankText_nil firstBlank
      | cons next more => rw [glue, solid_cons, ih, ← solid_cons]

/-- Blank pieces in front add no statement. -/
theorem solid_blank_glue (notEmpty : others ≠ []) (blank : ∀ text ∈ texts, IsBlankText text) :
    solid (glue texts others) = solid others := by
  induction texts with
  | nil => rfl
  | cons text texts ih =>
      obtain ⟨firstBlank, restBlank⟩ := List.forall_mem_cons.1 blank
      cases texts with
      | nil =>
          obtain ⟨first, rest, rfl⟩ := List.exists_cons_of_ne_nil notEmpty
          have joined : solid [text ++ first] = solid [first] := by
            simpa using solid_blank_append firstBlank Text.isBlankText_nil
          rw [glue, List.modifyHead_cons, solid_cons, joined, ← solid_cons]
      | cons next more =>
          rw [glue, solid_cons, solid_of_blank firstBlank, ih restBlank, List.nil_append]

/-- Blanks at the ends of a script take no part in its statements. -/
theorem solid_pieces_trim (cs : List Char) :
    solid (pieces {} (trim cs)) = solid (pieces {} cs) := by
  obtain ⟨lead, tail, leadBlank, tailBlank, whole⟩ := Text.exists_eq_append_trim cs
  have stays : ({} : Nesting).after lead = {} :=
    (Balanced.of_isBlankText leadBlank).after rfl
  symm
  calc
    solid (pieces {} cs) = solid (pieces {} (lead ++ (trim cs ++ tail))) := by
      rw [← List.append_assoc, ← whole]
    _ = solid (pieces {} (trim cs ++ tail)) := by
      rw [pieces_append, stays]
      apply solid_blank_glue (pieces_ne_nil _ _)
      intro text
      exact isBlankText_of_mem_pieces leadBlank
    _ = solid (pieces {} (trim cs)) := by
      rw [pieces_append]
      apply solid_glue_blank (pieces_ne_nil _ _)
      intro text
      exact isBlankText_of_mem_pieces tailBlank

theorem solid_pieces_blank_append (lead : IsBlankText front) (tail : IsBlankText back)
    (cs : List Char) :
    solid (pieces {} (front ++ cs ++ back)) = solid (pieces {} cs) := by
  rw [← solid_pieces_trim, Text.trim_append lead tail, solid_pieces_trim]

/-- A text that ends at a separator is one statement. -/
theorem pieces_separated (uncut : Uncut {} front) (settles : ({} : Nesting).after front = {})
    (separator : c = ';' ∨ c = '\n') (back : List Char) :
    pieces {} (front ++ c :: back) = front :: pieces {} back := by
  have apart : ({} : Nesting).separates c = true := by rcases separator with rfl | rfl <;> rfl
  have stays : ({} : Nesting).next c = {} := by rcases separator with rfl | rfl <;> rfl
  rw [uncut.pieces_append, settles, pieces, if_pos apart, stays, List.modifyHead_cons,
    List.append_nil]

/-- A text that ends with an outermost block is one statement. -/
theorem pieces_block (uncut : Uncut {} front) (settles : ({} : Nesting).after front = {})
    (closed : Closed .brace cs) (back : List Char) :
    pieces {} (front ++ Bracket.brace.around cs ++ back) =
      (front ++ Bracket.brace.around cs) :: pieces {} back := by
  have inside : Uncut (({} : Nesting).within 1 .brace) cs := .within closed.closes 0
  have opened : Uncut {} ('{' :: cs) := .cons rfl rfl inside
  have behind : ({} : Nesting).after ('{' :: cs) = ({} : Nesting).within 1 .brace := by
    have inner := Nesting.after_within closed.closes 1
    rw [closed.settles] at inner
    exact inner
  have last : pieces (({} : Nesting).within 1 .brace) ('}' :: back) = ['}'] :: pieces {} back :=
    rfl
  have whole : front ++ Bracket.brace.around cs ++ back =
      front ++ ('{' :: cs ++ '}' :: back) := by
    simp [Bracket.around, Bracket.opening, Bracket.closing]
  rw [whole, uncut.pieces_append, settles, opened.pieces_append, behind, last]
  simp [Bracket.around, Bracket.opening, Bracket.closing]

end Script
end Pagelet
