import Pagelet.Proofs.Text.Trimming

/-!
# Words of joined texts

Words end at blanks, so a blank between two texts keeps their words apart.  Where there is none,
the last word of the first text and the first of the second are one, and nothing else of the first
text matters.
-/

namespace Pagelet
namespace Text

variable {cs lead tail : List Char} {c other : Char}

theorem ne_of_isBlank (blank : isBlank c = true) (visible : isBlank other = false) :
    c ≠ other := by
  rintro rfl
  rw [blank] at visible
  cases visible

theorem not_mem_of_isBlankText (blank : IsBlankText tail) (visible : isBlank other = false) :
    other ∉ tail :=
  fun member => ne_of_isBlank (blank other member) visible rfl

/-- Words end at a blank. -/
theorem words_append_cons (blank : isBlank c = true) (front back : List Char) :
    words (front ++ c :: back) = words front ++ words back := by
  rw [words, List.splitOnP_append_cons front back blank, List.filter_append]
  rfl

theorem words_eq_nil (blank : IsBlankText tail) : words tail = [] := by
  induction tail with
  | nil => rfl
  | cons c rest ih =>
      obtain ⟨first, others⟩ := List.forall_mem_cons.1 blank
      have cut := words_append_cons first [] rest
      rw [List.nil_append, ih others] at cut
      exact cut

/-- Blanks behind a text add no words. -/
theorem words_append_of_blank (blank : IsBlankText tail) (cs : List Char) :
    words (cs ++ tail) = words cs := by
  cases tail with
  | nil => rw [List.append_nil]
  | cons c rest =>
      obtain ⟨first, others⟩ := List.forall_mem_cons.1 blank
      rw [words_append_cons first, words_eq_nil others, List.append_nil]

theorem words_blank_append (blank : IsBlankText lead) (cs : List Char) :
    words (lead ++ cs) = words cs := by
  induction lead with
  | nil => rfl
  | cons c rest ih =>
      obtain ⟨first, others⟩ := List.forall_mem_cons.1 blank
      have cut := words_append_cons first [] (rest ++ cs)
      rw [List.nil_append, ih others] at cut
      exact cut

/-- Blanks around a text do not count. -/
theorem collapse_spaced (leadBlank : IsBlankText lead) (tailBlank : IsBlankText tail)
    (cs : List Char) : collapse (lead ++ cs ++ tail) = collapse cs := by
  rw [collapse, words_append_of_blank tailBlank, words_blank_append leadBlank]
  rfl

/-- A text that begins with a visible character begins with it when its words are joined. -/
theorem exists_collapse_cons (visible : isBlank c = false) (rest : List Char) :
    ∃ tail, collapse (c :: rest) = c :: tail := by
  obtain ⟨first, others, cut⟩ := List.exists_cons_of_ne_nil (List.splitOnP_ne_nil isBlank rest)
  have begun : words (c :: rest) = (c :: first) :: others.filter (!·.isEmpty) := by
    rw [words, List.splitOnP_cons_eq_if_modifyHead, visible, if_neg Bool.false_ne_true, cut,
      List.modifyHead_cons]
    rfl
  rw [collapse, begun]
  cases others.filter (!·.isEmpty) with
  | nil => exact ⟨first, by simp [List.intercalate]⟩
  | cons second more => exact ⟨first ++ [' '].intercalate ([] :: second :: more), by
      simp [List.intercalate]⟩

/-- Trimming leaves the words as they are. -/
theorem words_trim (cs : List Char) : words (trim cs) = words cs := by
  obtain ⟨lead, tail, leadBlank, tailBlank, whole⟩ := exists_eq_append_trim cs
  calc
    words (trim cs) = words (lead ++ trim cs ++ tail) := by
      rw [words_append_of_blank tailBlank, words_blank_append leadBlank]
    _ = words cs := by rw [← whole]

theorem endsBlank_concat (init : List Char) (c : Char) : endsBlank (init ++ [c]) = isBlank c := by
  rw [endsBlank, List.reverse_concat]
  rfl

/-- A blank at the end of the first text or at the start of the second keeps the words apart. -/
theorem words_append_of_apart (front back : List Char)
    (apart : (endsBlank front || startsBlank back) = true) :
    words (front ++ back) = words front ++ words back := by
  obtain ends | starts := Bool.or_eq_true_iff.1 apart
  · obtain rfl | ⟨init, c, rfl⟩ := List.eq_nil_or_concat' front
    · rfl
    · rw [endsBlank_concat] at ends
      have alone := words_append_cons ends init []
      rw [words_eq_nil isBlankText_nil, List.append_nil] at alone
      rw [List.append_assoc, List.singleton_append, words_append_cons ends, alone]
  · cases back with
    | nil => exact absurd starts Bool.false_ne_true
    | cons c rest =>
        have alone : words (c :: rest) = words rest := words_append_cons starts [] rest
        rw [words_append_cons starts, alone]

/-- A text without blanks is a word. -/
theorem words_of_visible (notEmpty : cs ≠ []) (visible : ∀ c ∈ cs, isBlank c = false) :
    words cs = [cs] := by
  rw [words, List.splitOnP_eq_singleton visible]
  simp [notEmpty]

/-- A text that does not end in a blank ends in a word, and only this word is touched by what
comes behind. -/
theorem exists_last_word (notEmpty : cs ≠ []) (ends : endsBlank cs = false) :
    ∃ front last, words cs = front ++ [last] ∧
      ∀ back, words (cs ++ back) = front ++ words (last ++ back) := by
  -- the last word is what stands behind the last blank
  let visible : Char → Bool := fun c => !isBlank c
  have whole : cs.rdropWhile visible ++ cs.rtakeWhile visible = cs :=
    List.rdropWhile_append_rtakeWhile
  have lastVisible : ∀ c ∈ cs.rtakeWhile visible, isBlank c = false := by
    intro c member
    simpa [visible] using List.mem_rtakeWhile_imp member
  have lastNotEmpty : cs.rtakeWhile visible ≠ [] := by
    obtain ⟨init, c, rfl⟩ := (List.eq_nil_or_concat' cs).resolve_left notEmpty
    rw [endsBlank_concat] at ends
    simp [visible, ends]
  have extended (back : List Char) : words (cs ++ back) =
      words (cs.rdropWhile visible) ++ words (cs.rtakeWhile visible ++ back) := by
    nth_rewrite 1 [← whole]
    rw [List.append_assoc]
    by_cases empty : cs.rdropWhile visible = []
    · rw [empty]
      rfl
    · have stopped := List.rdropWhile_last_not visible cs empty
      obtain ⟨init, c, front⟩ := (List.eq_nil_or_concat' _).resolve_left empty
      simp only [front, List.getLast_append_singleton, visible, Bool.not_eq_true',
        Bool.not_eq_false] at stopped
      apply words_append_of_apart
      rw [front, endsBlank_concat, stopped, Bool.true_or]
  refine ⟨words (cs.rdropWhile visible), cs.rtakeWhile visible, ?_, extended⟩
  have alone := extended []
  rwa [List.append_nil, List.append_nil, words_of_visible lastNotEmpty lastVisible] at alone

/-- A text that ends visibly has words. -/
theorem words_ne_nil (notEmpty : cs ≠ []) (ends : endsBlank cs = false) : words cs ≠ [] := by
  obtain ⟨front, last, cut, -⟩ := exists_last_word notEmpty ends
  rw [cut]
  exact List.append_ne_nil_of_right_ne_nil front (List.cons_ne_nil last [])

/-- The text begins with the word, but for blanks in front of it: no blank stands in the word, and
a blank or the end of the text comes behind. -/
def FirstWord (cs word : List Char) : Prop :=
  word ≠ [] ∧ (∀ c ∈ word, isBlank c = false) ∧
    ∃ lead behind, cs = lead ++ (word ++ behind) ∧ IsBlankText lead ∧
      ∀ c ∈ behind.head?, isBlank c = true

/-- The first word comes first among the words. -/
theorem FirstWord.head?_words {word : List Char} (first : FirstWord cs word) :
    (words cs).head? = some word := by
  obtain ⟨notEmpty, visible, lead, behind, rfl, leadBlank, ends⟩ := first
  rw [words_blank_append leadBlank]
  cases behind with
  | nil => rw [List.append_nil, words_of_visible notEmpty visible, List.head?_cons]
  | cons c rest =>
      rw [words_append_cons (ends c rfl), words_of_visible notEmpty visible,
        List.singleton_append, List.head?_cons]

/-- Every visible text has a first word. -/
theorem exists_firstWord (notBlank : ¬ IsBlankText cs) : ∃ word, FirstWord cs word := by
  have split : cs = cs.takeWhile isBlank ++ trimStart cs :=
    List.takeWhile_append_dropWhile.symm
  have parts : trimStart cs = (trimStart cs).takeWhile (!isBlank ·) ++
      (trimStart cs).dropWhile (!isBlank ·) := List.takeWhile_append_dropWhile.symm
  refine ⟨(trimStart cs).takeWhile (!isBlank ·), ?_, ?_, cs.takeWhile isBlank,
    (trimStart cs).dropWhile (!isBlank ·), ?_, ?_, ?_⟩
  · cases visible : trimStart cs with
    | nil => exact absurd (List.dropWhile_eq_nil_iff.1 visible) notBlank
    | cons c rest => simp [trimStart_eq_cons visible]
  · intro c member
    simpa using List.mem_takeWhile_imp member
  · rw [← parts, ← split]
  · exact fun c member => List.mem_takeWhile_imp member
  · intro c first
    have stops := List.head?_dropWhile_not (!isBlank ·) (trimStart cs)
    rw [first] at stops
    simpa using stops

/-- The first word is the one with which the text begins. -/
theorem head?_words_eq_some_iff {word : List Char} :
    (words cs).head? = some word ↔ FirstWord cs word := by
  refine ⟨fun first => ?_, FirstWord.head?_words⟩
  have notBlank : ¬ IsBlankText cs := by
    intro blank
    rw [words_eq_nil blank] at first
    cases first
  obtain ⟨other, begins⟩ := exists_firstWord notBlank
  obtain rfl := Option.some.inj (first.symm.trans begins.head?_words)
  exact begins

/-- A text without words is blank. -/
theorem isBlankText_of_words_eq_nil (wordless : words cs = []) : IsBlankText cs := by
  by_contra notBlank
  have visible : trim cs ≠ [] := fun empty => notBlank (isBlankText_of_trim_eq_nil empty)
  exact words_ne_nil visible (endsBlank_trim cs) ((words_trim cs).trans wordless)

/-- What stands behind two texts with the same words makes the same words with them, unless they
end in a blank. -/
theorem words_append_congr {first second : List Char} (same : words first = words second)
    (firstNotEmpty : first ≠ []) (secondNotEmpty : second ≠ [])
    (firstEnds : endsBlank first = false) (secondEnds : endsBlank second = false)
    (back : List Char) :
    words (first ++ back) = words (second ++ back) := by
  obtain ⟨front, last, cut, extended⟩ := exists_last_word firstNotEmpty firstEnds
  obtain ⟨otherFront, otherLast, otherCut, otherExtended⟩ :=
    exists_last_word secondNotEmpty secondEnds
  obtain ⟨rfl, lasts⟩ := List.append_inj' (cut.symm.trans (same.trans otherCut)) rfl
  rw [extended, otherExtended, List.singleton_inj.1 lasts]

/-- A text may be trimmed before it is put behind another, of which only the words are known, if a
space stands between them where there are blanks between the texts. -/
theorem words_append_trim {first second : List Char} (same : words first = words second)
    (notEmpty : first ≠ []) (ends : endsBlank first = false) (more : List Char) :
    words (first ++ (if endsBlank second || startsBlank more then [' '] else []) ++ trim more) =
      words (second ++ more) := by
  cases apart : endsBlank second || startsBlank more with
  | true =>
      have blank : isBlank ' ' = true := by decide
      rw [if_pos rfl, List.append_assoc, List.singleton_append, words_append_cons blank, words_trim,
        same, words_append_of_apart second more apart]
  | false =>
      obtain ⟨secondEnds, starts⟩ := Bool.or_eq_false_iff.1 apart
      have secondNotEmpty : second ≠ [] := by
        rintro rfl
        exact words_ne_nil notEmpty ends same
      obtain ⟨tail, tailBlank, whole⟩ := exists_eq_trim_append starts
      calc
        words (first ++ [] ++ trim more) = words (second ++ trim more) := by
          rw [List.append_nil]
          exact words_append_congr same notEmpty secondNotEmpty ends secondEnds (trim more)
        _ = words (second ++ (trim more ++ tail)) := by
          rw [← List.append_assoc, words_append_of_blank tailBlank]
        _ = words (second ++ more) := by rw [← whole]

theorem trim_eq_nil_iff : trim cs = [] ↔ IsBlankText cs :=
  ⟨isBlankText_of_trim_eq_nil, trim_eq_nil⟩

theorem collapse_eq_nil_iff : collapse cs = [] ↔ IsBlankText cs := by
  constructor
  · intro empty
    by_contra notBlank
    obtain ⟨c, rest, begun⟩ := List.exists_cons_of_ne_nil (mt trim_eq_nil_iff.1 notBlank)
    have visible : isBlank c = false := by
      simpa [begun, startsBlank] using startsBlank_trim cs
    obtain ⟨tail, collapsed⟩ := exists_collapse_cons visible rest
    rw [← begun, collapse, words_trim] at collapsed
    exact List.cons_ne_nil c tail (collapsed.symm.trans empty)
  · intro blank
    rw [collapse, words_eq_nil blank]
    rfl

end Text
end Pagelet
