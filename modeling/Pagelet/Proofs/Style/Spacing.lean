import Pagelet.Proofs.Text.Words
import Pagelet.Style.Sheet

/-!
# Blanks in style sheets

Blanks around a selector and around a list of declarations make no difference to what is read.
-/

namespace Pagelet

namespace Style

open Text (IsBlankText isBlank trim)

variable {lead tail : List Char}

/-- Blanks around a selector do not count. -/
theorem selector?_spaced (leadBlank : IsBlankText lead) (tailBlank : IsBlankText tail)
    (cs : List Char) : selector? (lead ++ cs ++ tail) = selector? cs := by
  rw [selector?, Text.collapse_spaced leadBlank tailBlank]
  rfl

section Parts

variable {α : Type _} {p : α → Bool}

/-- What is put in front of a list and holds no separator belongs to the first part. -/
theorem splitOnP_append_of_forall_mem {front : List α} (plain : ∀ a ∈ front, p a = false)
    (back : List α) :
    (front ++ back).splitOnP p = (back.splitOnP p).modifyHead (front ++ ·) := by
  induction front with
  | nil => exact (congrFun List.modifyHead_id _).symm
  | cons a rest ih =>
      obtain ⟨first, others⟩ := List.forall_mem_cons.1 plain
      rw [List.cons_append, List.splitOnP_cons_eq_if_modifyHead,
        if_neg (Bool.not_eq_true _ ▸ first), ih others, List.modifyHead_modifyHead]
      rfl

/-- What is put behind a list and holds no separator belongs to the last part. -/
theorem exists_splitOnP_append (p : α → Bool) (list : List α) :
    ∃ others last, ∀ back : List α, (∀ a ∈ back, p a = false) →
      (list ++ back).splitOnP p = others ++ [last ++ back] := by
  induction list with
  | nil => exact ⟨[], [], fun back plain => List.splitOnP_eq_singleton plain⟩
  | cons a rest ih =>
      obtain ⟨others, last, extended⟩ := ih
      by_cases separator : p a = true
      · refine ⟨[] :: others, last, fun back plain => ?_⟩
        rw [List.cons_append, List.splitOnP_cons_eq_if_modifyHead, if_pos separator,
          extended back plain, List.cons_append]
      · -- the character goes to the first part, which may be the last one as well
        cases others with
        | nil =>
            refine ⟨[], a :: last, fun back plain => ?_⟩
            rw [List.cons_append, List.splitOnP_cons_eq_if_modifyHead, if_neg separator,
              extended back plain]
            rfl
        | cons first others =>
            refine ⟨(a :: first) :: others, last, fun back plain => ?_⟩
            rw [List.cons_append, List.splitOnP_cons_eq_if_modifyHead, if_neg separator,
              extended back plain]
            rfl

end Parts

/-- Blanks outside quotes change nothing about what is open. -/
theorem Cover.after_of_isBlankText {cover : Cover} (outside : cover.quotation = .outside)
    (blank : IsBlankText lead) : cover.after lead = cover := by
  induction lead with
  | nil => rfl
  | cons c rest ih =>
      obtain ⟨first, others⟩ := List.forall_mem_cons.1 blank
      have apart {sign : Char} (visible : isBlank sign = false) : c ≠ sign :=
        Text.ne_of_isBlank first visible
      have stays : cover.next c = cover := by
        obtain ⟨quotation, depth⟩ := cover
        obtain rfl : quotation = .outside := outside
        simp [next, Text.Quotation.next, Text.Quotation.covers, marks,
          apart (show isBlank '\'' = false by decide), apart (show isBlank '"' = false by decide),
          apart (show isBlank '(' = false by decide), apart (show isBlank '[' = false by decide),
          apart (show isBlank ')' = false by decide), apart (show isBlank ']' = false by decide)]
      have unchanged : cover.after (c :: rest) = (cover.next c).after rest := rfl
      rw [unchanged, stays, ih others]

/-- Blanks hold no separator. -/
theorem isCut_of_mem_expose {separator : Char} (visible : isBlank separator = false)
    (cover : Cover) (blank : IsBlankText tail) :
    ∀ member ∈ expose cover tail, isCut separator member = false := by
  intro member exposed
  have inside : member.1 ∈ tail := by
    rw [← map_fst_expose cover tail]
    exact List.mem_map_of_mem exposed
  have apart : member.1 ≠ separator := Text.ne_of_isBlank (blank _ inside) visible
  simp [isCut, apart]

/-- Blanks behind a text are blanks behind its last part. -/
theorem map_trim_splitExposed_append {separator : Char} (visible : isBlank separator = false)
    (tailBlank : IsBlankText tail) (cs : List Char) :
    (splitExposed separator (cs ++ tail)).map trim = (splitExposed separator cs).map trim := by
  obtain ⟨others, last, extended⟩ := exists_splitOnP_append (isCut separator) (expose {} cs)
  have alone := extended [] (List.forall_mem_nil _)
  have trimmed := Text.trim_append Text.isBlankText_nil tailBlank (last.map Prod.fst)
  rw [List.append_nil, List.append_nil] at alone
  rw [List.nil_append] at trimmed
  rw [splitExposed, splitExposed, expose_append, alone,
    extended _ (isCut_of_mem_expose visible _ tailBlank)]
  simp only [List.map_append, List.map_cons, List.map_nil, map_fst_expose, trimmed]

/-- Blanks before a text are blanks before its first part. -/
theorem map_trim_splitExposed_blank_append {separator : Char}
    (visible : isBlank separator = false) (leadBlank : IsBlankText lead) (cs : List Char) :
    (splitExposed separator (lead ++ cs)).map trim = (splitExposed separator cs).map trim := by
  have started : Cover.after {} lead = {} := Cover.after_of_isBlankText rfl leadBlank
  rw [splitExposed, splitExposed, expose_append, started,
    splitOnP_append_of_forall_mem (isCut_of_mem_expose visible {} leadBlank)]
  cases (expose {} cs).splitOnP (isCut separator) with
  | nil => rfl
  | cons first others =>
      have trimmed := Text.trim_append leadBlank Text.isBlankText_nil (first.map Prod.fst)
      rw [List.append_nil] at trimmed
      simp only [List.modifyHead_cons, List.map_cons, List.map_append, map_fst_expose, trimmed]

theorem declaration?_trim (item : List Char) : declaration? (trim item) = declaration? item := by
  rw [declaration?, declaration?, Text.trim_trim]

/-- Blanks around the declarations of a block make no difference. -/
theorem Properties.ofBlock_spaced (leadBlank : IsBlankText lead) (tailBlank : IsBlankText tail)
    (block : List Char) : ofBlock (lead ++ block ++ tail) = ofBlock block := by
  have trimmed (cs : List Char) :
      declarations cs = ((splitExposed ';' cs).map trim).filterMap declaration? := by
    rw [declarations, List.filterMap_map]
    exact List.filterMap_congr fun item _ => (declaration?_trim item).symm
  rw [ofBlock, ofBlock, trimmed, trimmed, map_trim_splitExposed_append (by decide) tailBlank,
    map_trim_splitExposed_blank_append (by decide) leadBlank]

end Style
end Pagelet
