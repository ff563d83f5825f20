import Pagelet.Proofs.Statement.Comments
import Pagelet.Proofs.Statement.Pieces

/-!
# How statements lie in a script

Without its comments, a script is its statements one after the other, with nothing between them
but blanks and semicolons.  There is one way to read a script like that, and the statements read
so are found again when each is split alone, and when they are joined and split as one script.
-/

namespace Pagelet
namespace Script

open Text (Quotation isBlank IsBlankText trim)

variable {nesting : Nesting} {c : Char} {cs front back rest tail : List Char}
  {texts : List (List Char)}

/-- The text is one statement: none of its characters separates statements, and only the last one
may close an outermost block. -/
structure IsStatement (text : List Char) : Prop where
  /-- There is something in the text. -/
  notEmpty : text ≠ []
  /-- There are no blanks at the ends. -/
  trimmed : trim text = text
  /-- No character separates statements where it stands. -/
  unseparated : ∀ front c back, text = front ++ c :: back →
    (({} : Nesting).after front).separates c = false
  /-- Nothing stands behind an outermost block. -/
  blockLast : ∀ front c back, text = front ++ c :: back →
    (({} : Nesting).after front).closesBlock c = true → back = []

/-- The text ends with an outermost block. -/
def EndsWithBlock (text : List Char) : Prop :=
  ∃ front c, text = front ++ [c] ∧ (({} : Nesting).after front).closesBlock c = true

/-- The first thing in the text that is no blank is a separator, or a line end stands in front
of it. -/
def StartsSeparated (text : List Char) : Prop :=
  ∃ gap c back, text = gap ++ c :: back ∧ IsBlankText gap ∧ (c = ';' ∨ c = '\n')

/-- How statements lie in a text that has no comments.  Each statement but the last leaves
strings and brackets closed, and ends with a block or in front of a separator. -/
inductive Laid : List Char → List (List Char) → Prop
  | blank {text : List Char} (blank : IsBlankText text) : Laid text []
  | gap {c : Char} {text : List Char} {statements : List (List Char)}
      (between : c = ';' ∨ isBlank c = true) (others : Laid text statements) :
      Laid (c :: text) statements
  | last {statement tail : List Char} (single : IsStatement statement)
      (blank : IsBlankText tail) : Laid (statement ++ tail) [statement]
  | statement {statement text : List Char} {statements : List (List Char)}
      (single : IsStatement statement) (settles : ({} : Nesting).after statement = {})
      (ends : EndsWithBlock statement ∨ StartsSeparated text) (others : Laid text statements) :
      Laid (statement ++ text) (statement :: statements)

theorem Laid.isStatement (laid : Laid cs texts) : ∀ text ∈ texts, IsStatement text := by
  induction laid with
  | blank => exact List.forall_mem_nil _
  | gap between others ih => exact ih
  | last single blank => exact List.forall_mem_singleton.2 single
  | statement single settles ends others ih => exact List.forall_mem_cons.2 ⟨single, ih⟩

/-- Where a text is not cut, it is not cut at its first character nor behind it. -/
theorem Uncut.of_cons (uncut : Uncut nesting (c :: cs)) :
    nesting.separates c = false ∧ nesting.closesBlock c = false ∧ Uncut (nesting.next c) cs := by
  rw [Uncut, pieces] at uncut
  split at uncut
  · cases uncut
  · next apart =>
    split at uncut
    · exact absurd (List.cons.inj uncut).2 (pieces_ne_nil _ _)
    · next stays =>
      refine ⟨Bool.eq_false_iff.2 apart, Bool.eq_false_iff.2 stays, ?_⟩
      have some := pieces_ne_nil (nesting.next c) cs
      obtain ⟨first, others, found⟩ := List.exists_cons_of_ne_nil some
      rw [found, List.modifyHead_cons] at uncut
      obtain ⟨same, rfl⟩ := List.cons.inj uncut
      obtain ⟨-, rfl⟩ := List.cons.inj same
      exact found

/-- A text is not cut if no character in it separates statements or closes an outermost
block. -/
theorem uncut_iff : Uncut nesting cs ↔ ∀ front c back, cs = front ++ c :: back →
    (nesting.after front).separates c = false ∧ (nesting.after front).closesBlock c = false := by
  constructor
  · rintro uncut front c back rfl
    induction front generalizing nesting with
    | nil => exact ⟨uncut.of_cons.1, uncut.of_cons.2.1⟩
    | cons d front ih => exact ih uncut.of_cons.2.2
  · intro each
    induction cs generalizing nesting with
    | nil => exact .nil nesting
    | cons c cs ih =>
        obtain ⟨apart, stays⟩ := each [] c cs rfl
        refine .cons apart stays (ih ?_)
        rintro front d back rfl
        exact each (c :: front) d back rfl

/-- Where two texts are not cut together, neither is cut. -/
theorem Uncut.of_append (uncut : Uncut nesting (front ++ back)) :
    Uncut nesting front ∧ Uncut (nesting.after front) back := by
  rw [uncut_iff] at uncut
  constructor
  · rw [uncut_iff]
    rintro first c last rfl
    exact uncut first c (last ++ back) (by simp)
  · rw [uncut_iff]
    rintro first c last rfl
    rw [← Nesting.after_append]
    exact uncut (front ++ first) c last (by simp)

/-- A text that is cut has a first place at which it is. -/
theorem uncut_or_cut (nesting : Nesting) (cs : List Char) :
    Uncut nesting cs ∨ ∃ front c back, cs = front ++ c :: back ∧ Uncut nesting front ∧
      ((nesting.after front).separates c = true ∨ (nesting.after front).closesBlock c = true) := by
  induction cs generalizing nesting with
  | nil => exact .inl (.nil nesting)
  | cons c cs ih =>
      cases apart : nesting.separates c with
      | true => exact .inr ⟨[], c, cs, rfl, .nil nesting, .inl apart⟩
      | false =>
          cases stays : nesting.closesBlock c with
          | true => exact .inr ⟨[], c, cs, rfl, .nil nesting, .inr stays⟩
          | false =>
              rcases ih (nesting.next c) with uncut | ⟨front, d, back, rfl, uncut, cut⟩
              · exact .inl (.cons apart stays uncut)
              · exact .inr ⟨c :: front, d, back, rfl, .cons apart stays uncut, cut⟩

namespace Nesting

theorem eq_of_isFlat (flat : nesting.isFlat = true) : nesting = {} := by
  obtain ⟨quotation, braces, parens⟩ := nesting
  simp only [isFlat, Bool.and_eq_true, beq_iff_eq] at flat
  obtain ⟨⟨rfl, rfl⟩, rfl⟩ := flat
  rfl

/-- Statements are separated by semicolons and line ends outside strings and brackets. -/
theorem separates_iff : nesting.separates c = true ↔ nesting = {} ∧ (c = ';' ∨ c = '\n') := by
  simp only [separates, Bool.and_eq_true, Bool.or_eq_true, beq_iff_eq]
  constructor
  · rintro ⟨flat, separator⟩
    exact ⟨eq_of_isFlat flat, separator⟩
  · rintro ⟨rfl, separator⟩
    exact ⟨rfl, separator⟩

/-- Only a closing brace closes a block, and then nothing is open. -/
theorem eq_of_closesBlock (closes : nesting.closesBlock c = true) :
    c = '}' ∧ nesting.next c = {} := by
  simp only [closesBlock, Bool.and_eq_true, beq_iff_eq] at closes
  exact ⟨closes.1.1, eq_of_isFlat closes.2⟩

end Nesting

/-- If a string is open, one of the marks has opened it. -/
def Opened : Quotation → Prop
  | .outside => True
  | .inside mark | .escaped mark => marks.contains mark = true

theorem Opened.next {state : Quotation} (opened : Opened state) (c : Char) :
    Opened (state.next marks c) := by
  cases state with
  | outside =>
      rw [Quotation.next]
      split
      · next known => exact known
      · trivial
  | inside mark =>
      rw [Quotation.next]
      split
      · exact opened
      · split
        · trivial
        · exact opened
  | escaped mark => exact opened

theorem Opened.after {state : Quotation} (opened : Opened state) (cs : List Char) :
    Opened (state.after marks cs) := by
  induction cs generalizing state with
  | nil => exact opened
  | cons c cs ih => exact ih (opened.next c)

/-- Blanks do not lead out of a string. -/
theorem Opened.eq_outside_of_blank {state : Quotation} (opened : Opened state)
    (blank : IsBlankText cs) (outside : state.after marks cs = .outside) : state = .outside := by
  induction cs generalizing state with
  | nil => exact outside
  | cons c cs ih =>
      obtain ⟨first, others⟩ := List.forall_mem_cons.1 blank
      have unmarked := unmarked_of_isInert (isInert_of_isBlank first)
      have behind := ih (opened.next c) others outside
      cases state with
      | outside => rfl
      | inside mark =>
          have apart : c ≠ mark := by
            rintro rfl
            exact Bool.noConfusion (unmarked.symm.trans opened)
          rw [Quotation.next, if_neg apart] at behind
          split at behind <;> cases behind
      | escaped mark => cases behind

/-- A text that is closed with blanks behind it is closed without them. -/
theorem settles_of_append_blank (blank : IsBlankText tail)
    (settles : ({} : Nesting).after (front ++ tail) = {}) : ({} : Nesting).after front = {} := by
  have opened : Opened (({} : Nesting).after front).quotation := by
    have start : Opened .outside := trivial
    rw [Nesting.after_quotation]
    exact start.after front
  have outside : (({} : Nesting).after front).quotation = .outside := by
    apply opened.eq_outside_of_blank blank
    rw [← Nesting.after_quotation, ← Nesting.after_append, settles]
  rw [Nesting.after_append, (Balanced.of_isBlankText blank).after outside] at settles
  exact settles

/-! ## The statements of a text -/

/-- A character of a text with one more behind it is the last one, or stands before it. -/
theorem append_cons_eq_concat {first last : List Char} {d : Char}
    (same : first ++ d :: last = front ++ [c]) :
    (first = front ∧ d = c ∧ last = []) ∨ ∃ middle, front = first ++ d :: middle := by
  rcases List.append_eq_append_iff.1 same with ⟨middle, rfl, rest⟩ | ⟨middle, rfl, rest⟩
  · cases middle with
    | nil =>
        cases rest
        exact .inl ⟨(List.append_nil _).symm, rfl, rfl⟩
    | cons e middle =>
        cases rest
        exact .inr ⟨middle, rfl⟩
  · cases middle with
    | nil =>
        cases rest
        exact .inl ⟨List.append_nil _, rfl, rfl⟩
    | cons e middle =>
        have none : middle ++ d :: last = [] := (List.cons.inj rest).2.symm
        exact absurd none (by simp)

namespace IsStatement

/-- A text in one piece is a statement without the blanks at its ends. -/
theorem of_uncut (uncut : Uncut {} cs) (notEmpty : cs ≠ []) (trimmed : trim cs = cs) :
    IsStatement cs where
  notEmpty := notEmpty
  trimmed := trimmed
  unseparated front c back same := (uncut_iff.1 uncut front c back same).1
  blockLast front c back same closes := by
    rw [(uncut_iff.1 uncut front c back same).2] at closes
    cases closes

/-- A text in one piece up to the end of a block is a statement. -/
theorem of_block (uncut : Uncut {} front)
    (closes : (({} : Nesting).after front).closesBlock c = true)
    (trimmed : trim (front ++ [c]) = front ++ [c]) : IsStatement (front ++ [c]) where
  notEmpty := List.append_ne_nil_of_right_ne_nil _ (List.cons_ne_nil _ _)
  trimmed := trimmed
  unseparated first d last same := by
    rcases append_cons_eq_concat same.symm with ⟨rfl, rfl, rfl⟩ | ⟨middle, inner⟩
    · obtain ⟨rfl, -⟩ := Nesting.eq_of_closesBlock closes
      simp [Nesting.separates]
    · exact (uncut_iff.1 uncut first d middle inner).1
  blockLast first d last same found := by
    rcases append_cons_eq_concat same.symm with ⟨rfl, rfl, rfl⟩ | ⟨middle, inner⟩
    · rfl
    · rw [(uncut_iff.1 uncut first d middle inner).2] at found
      cases found

/-- A statement is in one piece, or is so up to the end of a block. -/
theorem uncut_or_block (statement : IsStatement cs) :
    Uncut {} cs ∨ ∃ front c, cs = front ++ [c] ∧ Uncut {} front ∧
      (({} : Nesting).after front).closesBlock c = true := by
  rcases uncut_or_cut {} cs with uncut | ⟨front, c, back, rfl, uncut, apart | closes⟩
  · exact .inl uncut
  · rw [statement.unseparated front c back rfl] at apart
    cases apart
  · obtain rfl := statement.blockLast front c back rfl closes
    exact .inr ⟨front, c, rfl, uncut, closes⟩

end IsStatement

/-- Behind the end of a block a new text begins. -/
theorem pieces_closing (uncut : Uncut nesting front)
    (closes : (nesting.after front).closesBlock c = true) (back : List Char) :
    pieces nesting (front ++ c :: back) = (front ++ [c]) :: pieces {} back := by
  obtain ⟨rfl, flat⟩ := Nesting.eq_of_closesBlock closes
  have apart : (nesting.after front).separates '}' = false := by simp [Nesting.separates]
  rw [uncut.pieces_append, pieces, apart, if_neg Bool.false_ne_true, if_pos closes, flat,
    List.modifyHead_cons]

/-- In front of a separator the first piece is blank. -/
theorem StartsSeparated.exists_pieces (separated : StartsSeparated cs) :
    ∃ gap others, IsBlankText gap ∧ pieces {} cs = gap :: others := by
  obtain ⟨gap, c, back, rfl, blank, separator⟩ := separated
  have here (rest : List Char) (d : Char) (ends : d = ';' ∨ d = '\n') :
      ∃ gap others, IsBlankText gap ∧ pieces {} (d :: rest) = gap :: others :=
    ⟨[], pieces {} rest, Text.isBlankText_nil, pieces_separated (.nil {}) rfl ends rest⟩
  induction gap with
  | nil => exact here back c separator
  | cons d gap ih =>
      obtain ⟨first, others⟩ := List.forall_mem_cons.1 blank
      by_cases ends : d = ';' ∨ d = '\n'
      · exact here _ d ends
      · have inert := isInert_of_isBlank first
        rw [not_or] at ends
        have uncut : Uncut {} [d] := .of_isInert rfl (by simpa using ⟨inert, ends⟩)
        obtain ⟨text, rest, textBlank, found⟩ := ih others
        refine ⟨d :: text, rest, List.forall_mem_cons.2 ⟨first, textBlank⟩, ?_⟩
        have step := uncut.pieces_append (gap ++ c :: back)
        rw [Nesting.after_cons, Nesting.next_of_isInert rfl inert, Nesting.after_nil, found] at step
        exact step

/-- A separator or a blank at the front changes no statement. -/
theorem solid_gap (between : c = ';' ∨ isBlank c = true) (cs : List Char) :
    solid (pieces {} (c :: cs)) = solid (pieces {} cs) := by
  rcases between with rfl | blank
  · have first : solid [[]] = [] := solid_of_blank Text.isBlankText_nil
    rw [← List.nil_append (';' :: cs), pieces_separated (.nil {}) rfl (.inl rfl), solid_cons, first,
      List.nil_append]
  · have lead : IsBlankText [c] := by simpa [IsBlankText] using blank
    simpa using solid_pieces_blank_append lead Text.isBlankText_nil cs

namespace IsStatement

/-- A statement is not split further. -/
theorem solid_pieces (statement : IsStatement cs) : solid (pieces {} cs) = [cs] := by
  rcases statement.uncut_or_block with uncut | ⟨front, c, rfl, uncut, closes⟩
  · rw [uncut]
    exact solid_of_trimmed statement.trimmed statement.notEmpty
  · have last : solid [[]] = [] := solid_of_blank Text.isBlankText_nil
    rw [pieces_closing uncut closes, pieces, solid_cons, last,
      solid_of_trimmed statement.trimmed statement.notEmpty, List.append_nil]

/-- A statement that ends is the first one of the text that begins with it. -/
theorem solid_pieces_append (statement : IsStatement cs) (settles : ({} : Nesting).after cs = {})
    (ends : EndsWithBlock cs ∨ StartsSeparated back) :
    solid (pieces {} (cs ++ back)) = cs :: solid (pieces {} back) := by
  have alone : solid [cs] = [cs] := solid_of_trimmed statement.trimmed statement.notEmpty
  rcases statement.uncut_or_block with uncut | ⟨front, c, rfl, uncut, closes⟩
  · rcases ends with ⟨front, c, rfl, closes⟩ | separated
    · have stays := (uncut_iff.1 uncut front c [] rfl).2
      rw [closes] at stays
      cases stays
    · obtain ⟨gap, others, blank, found⟩ := separated.exists_pieces
      have joined : solid [cs ++ gap] = solid [cs] := solid_blank_append Text.isBlankText_nil blank
      rw [uncut.pieces_append, settles, found, List.modifyHead_cons, solid_cons, joined, alone,
        solid_cons gap, solid_of_blank blank]
      rfl
  · rw [List.append_assoc, List.singleton_append, pieces_closing uncut closes, solid_cons, alone]
    rfl

end IsStatement

/-- The statements that lie in a text are those that it is split into. -/
theorem Laid.eq_solid (laid : Laid cs texts) : texts = solid (pieces {} cs) := by
  induction laid with
  | blank blank =>
      symm
      apply solid_eq_nil
      intro piece member
      exact isBlankText_of_mem_pieces blank member
  | gap between others ih => rw [solid_gap between, ih]
  | @last statement tail single blank =>
      have whole := solid_pieces_blank_append Text.isBlankText_nil blank statement
      rw [List.nil_append] at whole
      rw [whole, single.solid_pieces]
  | statement single settles ends others ih =>
      rw [single.solid_pieces_append settles ends, ih]

/-! ## The statements lie in the text -/

theorem Laid.blank_append (blank : IsBlankText front) (laid : Laid cs texts) :
    Laid (front ++ cs) texts := by
  induction front with
  | nil => exact laid
  | cons c front ih =>
      obtain ⟨first, others⟩ := List.forall_mem_cons.1 blank
      exact .gap (.inr first) (ih others)

theorem between_of_separator (separator : c = ';' ∨ c = '\n') : c = ';' ∨ isBlank c = true := by
  rcases separator with rfl | rfl
  · exact .inl rfl
  · exact .inr rfl

section Pieces

variable (uncut : Uncut {} front)

include uncut

/-- A text in one piece is one statement between blanks. -/
theorem exists_statement_of_uncut (notBlank : ¬ IsBlankText front) :
    ∃ lead tail, IsBlankText lead ∧ IsBlankText tail ∧ front = lead ++ (trim front ++ tail) ∧
      solid [front] = [trim front] ∧ IsStatement (trim front) ∧
        ({} : Nesting).after front = ({} : Nesting).after (trim front ++ tail) := by
  obtain ⟨lead, tail, leadBlank, tailBlank, whole⟩ := Text.exists_eq_append_trim front
  rw [List.append_assoc] at whole
  have notEmpty : trim front ≠ [] := fun empty => notBlank (Text.isBlankText_of_trim_eq_nil empty)
  have stays : ({} : Nesting).after lead = {} := (Balanced.of_isBlankText leadBlank).after rfl
  have same : ({} : Nesting).after front = ({} : Nesting).after (trim front ++ tail) := by
    conv_lhs => rw [whole, Nesting.after_append, stays]
  rw [whole] at uncut
  have inner := uncut.of_append.2.of_append.1
  rw [stays] at inner
  exact ⟨lead, tail, leadBlank, tailBlank, whole, by simp [solid, notEmpty],
    .of_uncut inner notEmpty (Text.trim_trim front), same⟩

/-- A text in one piece has its statement laid in it, if it has one. -/
theorem laid_uncut : Laid front (solid [front]) := by
  by_cases blank : IsBlankText front
  · rw [solid_of_blank blank]
    exact .blank blank
  · obtain ⟨lead, tail, leadBlank, tailBlank, whole, alone, single, -⟩ :=
      exists_statement_of_uncut uncut blank
    rw [alone]
    have laid := (Laid.last single tailBlank).blank_append leadBlank
    rwa [← whole] at laid

/-- So has a text that a separator ends, in front of what lies behind. -/
theorem laid_separated (settles : ({} : Nesting).after front = {})
    (separator : c = ';' ∨ c = '\n') (laid : Laid back texts) :
    Laid (front ++ c :: back) (solid [front] ++ texts) := by
  have between := between_of_separator separator
  by_cases blank : IsBlankText front
  · rw [solid_of_blank blank]
    exact (laid.gap between).blank_append blank
  · obtain ⟨lead, tail, leadBlank, tailBlank, whole, alone, single, same⟩ :=
      exists_statement_of_uncut uncut blank
    have closed : ({} : Nesting).after (trim front) = {} :=
      settles_of_append_blank tailBlank (same.symm.trans settles)
    have separated : StartsSeparated (tail ++ c :: back) :=
      ⟨tail, c, back, rfl, tailBlank, separator⟩
    have laid := (Laid.statement single closed (.inr separated)
      ((laid.gap between).blank_append tailBlank)).blank_append leadBlank
    rw [← List.append_assoc, ← List.append_assoc, List.append_assoc lead, ← whole] at laid
    rwa [alone]

/-- And so has a text that the end of a block ends. -/
theorem laid_closing (closes : (({} : Nesting).after front).closesBlock c = true)
    (laid : Laid back texts) : Laid (front ++ c :: back) (solid [front ++ [c]] ++ texts) := by
  obtain ⟨rfl, flat⟩ := Nesting.eq_of_closesBlock closes
  obtain ⟨lead, rest, leadBlank, rfl, trimmed⟩ := Text.exists_trim_concat (c := '}') rfl front
  have stays : ({} : Nesting).after lead = {} := (Balanced.of_isBlankText leadBlank).after rfl
  have inner := uncut.of_append.2
  rw [Nesting.after_append, stays] at closes flat
  rw [stays] at inner
  have alone : trim (rest ++ ['}']) = rest ++ ['}'] := by
    rw [← trimmed, Text.trim_trim]
  have single := IsStatement.of_block inner closes alone
  have settles : ({} : Nesting).after (rest ++ ['}']) = {} := by
    rw [Nesting.after_append]
    exact flat
  have first : solid [lead ++ rest ++ ['}']] = [rest ++ ['}']] := by
    rw [← solid_of_trimmed alone single.notEmpty, ← trimmed, solid, solid, List.map_singleton,
      List.map_singleton, Text.trim_trim]
  have laid := (Laid.statement single settles (.inl ⟨rest, '}', rfl, closes⟩) laid).blank_append
    leadBlank
  rw [first]
  simpa using laid

end Pieces

/-- Every text is read as statements that lie in it. -/
theorem laid_solid (cs : List Char) : Laid cs (solid (pieces {} cs)) := by
  induction size : cs.length using Nat.strongRecOn generalizing cs with
  | ind size ih =>
      subst size
      rcases uncut_or_cut {} cs with uncut | ⟨front, c, back, rfl, uncut, apart | closes⟩
      · rw [uncut]
        exact laid_uncut uncut
      · obtain ⟨settles, separator⟩ := Nesting.separates_iff.1 apart
        rw [pieces_separated uncut settles separator, solid_cons]
        exact laid_separated uncut settles separator (ih _ (by simp; omega) back rfl)
      · rw [pieces_closing uncut closes, solid_cons]
        exact laid_closing uncut closes (ih _ (by simp; omega) back rfl)

/-- There is one way to read a text as statements that lie in it. -/
theorem laid_iff : Laid cs texts ↔ texts = solid (pieces {} cs) := by
  refine ⟨Laid.eq_solid, ?_⟩
  rintro rfl
  exact laid_solid cs

theorem next_between (between : c = ';' ∨ isBlank c = true) :
    Quotation.outside.next marks c = .outside := by
  rcases between with rfl | blank
  · rfl
  · rw [Quotation.next, unmarked_of_isInert (isInert_of_isBlank blank)]
    rfl

/-- The statements of a text without comments have no comments. -/
theorem Laid.uncommented (laid : Laid cs texts) (uncommented : Uncommented .outside cs) :
    ∀ text ∈ texts, Uncommented .outside text := by
  induction laid with
  | blank blank => exact List.forall_mem_nil _
  | gap between others ih =>
      have behind := uncommented.2
      rw [next_between between] at behind
      exact ih behind
  | last single blank =>
      exact List.forall_mem_singleton.2 uncommented.of_append.1
  | statement single settles ends others ih =>
      obtain ⟨first, behind⟩ := uncommented.of_append
      rw [Nesting.quotation_of_settles settles] at behind
      exact List.forall_mem_cons.2 ⟨first, ih behind⟩

/-- Between separators the statements lie as they did. -/
theorem Laid.intercalate (laid : Laid cs texts) (separator : c = ';' ∨ c = '\n') :
    Laid ([c].intercalate texts) texts := by
  have alone {text : List Char} (single : IsStatement text) :
      Laid ([c].intercalate [text]) [text] := by
    have whole := Laid.last single Text.isBlankText_nil
    rw [List.intercalate_singleton]
    rwa [List.append_nil] at whole
  induction laid with
  | blank blank => exact .blank Text.isBlankText_nil
  | gap between others ih => exact ih
  | last single blank => exact alone single
  | @statement statement text statements single settles ends others ih =>
      cases statements with
      | nil => exact alone single
      | cons next statements =>
          rw [List.intercalate_cons_cons, List.append_assoc]
          exact .statement single settles
            (.inr ⟨[], c, _, rfl, Text.isBlankText_nil, separator⟩)
            (ih.gap (between_of_separator separator))

/-- Separators between statements begin no comment. -/
theorem Laid.uncommented_intercalate (laid : Laid cs texts) (separator : c = ';' ∨ c = '\n')
    (uncommented : ∀ text ∈ texts, Uncommented .outside text) :
    Uncommented .outside ([c].intercalate texts) := by
  induction laid with
  | blank blank => trivial
  | gap between others ih => exact ih uncommented
  | last single blank =>
      rw [List.intercalate_singleton]
      exact uncommented _ List.mem_cons_self
  | @statement statement text statements single settles ends others ih =>
      obtain ⟨first, behind⟩ := List.forall_mem_cons.1 uncommented
      cases statements with
      | nil =>
          rw [List.intercalate_singleton]
          exact first
      | cons next statements =>
          have noSlash : c ≠ '/' := by rcases separator with rfl | rfl <;> decide
          rw [List.intercalate_cons_cons, List.append_assoc]
          refine first.append ?_ fun _ slash => noSlash (Option.some.inj slash)
          rw [Nesting.quotation_of_settles settles]
          refine ⟨fun begins => noSlash begins.2.1, ?_⟩
          rw [next_between (between_of_separator separator)]
          exact ih behind

/-- The statements of a source are found again in each of them alone, and in all of them joined
by semicolons or line ends.  They are the only statements that lie in the source without its
comments, so every character outside comments stands in just one of them, in order, or is a blank
at the end of one, or a semicolon or a line end between two. -/
theorem splitStatements_canonical (source : List Char) :
    (∀ statement ∈ splitStatements source, splitStatements statement = [statement]) ∧
      (∀ separator, separator = ';' ∨ separator = '\n' →
        splitStatements ([separator].intercalate (splitStatements source)) =
          splitStatements source) ∧
      ∃ text, Stripped .outside source text ∧
        ∀ statements, Laid text statements ↔ statements = splitStatements source := by
  have laid := laid_solid (dropComments (.code .outside) source)
  have uncommented := laid.uncommented (uncommented_dropComments (.code .outside) source)
  rw [← splitStatements_eq] at laid uncommented
  refine ⟨fun statement member => ?_, fun separator either => ?_,
    dropComments (.code .outside) source, stripped_iff.2 rfl, fun statements => laid_iff⟩
  · rw [splitStatements_eq, (uncommented statement member).dropComments_eq]
    exact (laid.isStatement statement member).solid_pieces
  · rw [splitStatements_eq (List.intercalate _ _),
      (laid.uncommented_intercalate either uncommented).dropComments_eq]
    exact (laid.intercalate either).eq_solid.symm

end Script
end Pagelet
