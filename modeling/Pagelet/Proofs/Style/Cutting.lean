import Pagelet.Proofs.Style.Printing

/-!
# Texts cut at exposed separators

A separator cuts a text where no string and no bracket is open.  What a cut leaves on either side
is read as it would be read alone, so parts can be put together again with separators between them,
and they are the parts of the whole.
-/

namespace Pagelet
namespace Style

open Text (Quotation)

/-- The text leaves no string and no bracket open. -/
def IsClosed (cs : List Char) : Prop :=
  Cover.after {} cs = {}

/-- Wherever the separator stands, a string or a bracket is open. -/
abbrev Unexposed (separator : Char) : Cover → List Char → Prop :=
  AtEvery Cover.next (· ≠ {}) separator

/-- The first exposed separator stands between the two texts. -/
structure Cut (separator : Char) (cs front back : List Char) : Prop where
  /-- The text is the two with the separator between them. -/
  whole : cs = front ++ separator :: back
  /-- No separator before it is exposed. -/
  unexposed : Unexposed separator {} front
  /-- The separator itself is exposed. -/
  closed : IsClosed front

/-- The texts are the parts of one that is cut at its exposed separators. -/
inductive Parts (separator : Char) : List (List Char) → Prop
  | last {part : List Char} (unexposed : Unexposed separator {} part) : Parts separator [part]
  | cons {part : List Char} {rest : List (List Char)} (unexposed : Unexposed separator {} part)
      (closed : IsClosed part) (others : Parts separator rest) : Parts separator (part :: rest)

instance : DecidablePred IsClosed := fun cs =>
  inferInstanceAs (Decidable (Cover.after {} cs = {}))

variable {separator : Char} {cover : Cover} {cs front back : List Char}

/-- Some separator is exposed, or none is. -/
theorem cut_or_unexposed (separator : Char) (cover : Cover) (cs : List Char) :
    (∃ front back, cs = front ++ separator :: back ∧ Unexposed separator cover front ∧
      cover.after front = {}) ∨ Unexposed separator cover cs := by
  induction cs generalizing cover with
  | nil => exact .inr atEvery_nil
  | cons c rest ih =>
      by_cases here : c = separator ∧ cover = {}
      · obtain ⟨rfl, rfl⟩ := here
        exact .inl ⟨[], rest, rfl, atEvery_nil, rfl⟩
      · have first : c = separator → cover ≠ {} := fun same closed => here ⟨same, closed⟩
        rcases ih (cover.next c) with ⟨front, back, rfl, unexposed, closed⟩ | unexposed
        · exact .inl ⟨c :: front, back, rfl, atEvery_cons_iff.2 ⟨first, unexposed⟩, closed⟩
        · exact .inr (atEvery_cons_iff.2 ⟨first, unexposed⟩)

/-- A text is cut at its first exposed separator, if it has one. -/
theorem exists_cut_or_unexposed (separator : Char) (cs : List Char) :
    (∃ front back, Cut separator cs front back) ∨ Unexposed separator {} cs :=
  (cut_or_unexposed separator {} cs).imp_left
    fun ⟨front, back, whole, unexposed, closed⟩ => ⟨front, back, whole, unexposed, closed⟩

/-- A text that is cut exposes a separator. -/
theorem Cut.not_unexposed (cut : Cut separator cs front back) : ¬ Unexposed separator {} cs :=
  fun unexposed => unexposed front back cut.whole cut.closed

theorem Parts.exists_cons {parts : List (List Char)} (isCutting : Parts separator parts) :
    ∃ first others, parts = first :: others := by
  cases isCutting <;> exact ⟨_, _, rfl⟩

/-- Every text is parts with separators between them. -/
theorem exists_parts (separator : Char) (cs : List Char) :
    ∃ parts, Parts separator parts ∧ [separator].intercalate parts = cs := by
  induction length : cs.length using Nat.strongRecOn generalizing cs with
  | ind length' ih =>
      obtain ⟨front, back, rfl, unexposed, closed⟩ | unexposed :=
        exists_cut_or_unexposed separator cs
      · have shorter : back.length < length' := by
          rw [← length, List.length_append, List.length_cons]
          omega
        obtain ⟨parts, others, rfl⟩ := ih back.length shorter back rfl
        obtain ⟨first, more, rfl⟩ := others.exists_cons
        refine ⟨front :: first :: more, .cons unexposed closed others, ?_⟩
        rw [List.intercalate_cons_cons, List.append_assoc, List.singleton_append]
      · exact ⟨[cs], .last unexposed, List.intercalate_singleton⟩

/-- Parts remain parts when one of several is left out. -/
theorem Parts.erase {before behind : List (List Char)} {part : List Char}
    (parts : Parts separator (before ++ part :: behind)) (others : before ++ behind ≠ []) :
    Parts separator (before ++ behind) := by
  induction before with
  | nil =>
      cases parts with
      | last => exact absurd rfl others
      | cons _ _ rest => exact rest
  | cons first before ih =>
      generalize whole : first :: before ++ part :: behind = all at parts
      cases parts with
      | last => simp at whole
      | cons unexposed closed rest =>
          obtain ⟨rfl, rfl⟩ := List.cons.inj whole
          by_cases alone : before ++ behind = []
          · rw [List.cons_append, alone]
            exact .last unexposed
          · exact .cons unexposed closed (ih rest alone)

section Plain

-- the separator opens nothing
variable (plain : Cover.next {} separator = {})
include plain

/-- A separator is exposed outside strings and brackets alone. -/
theorem exposes_iff : cover.exposes separator = true ↔ cover = {} := by
  constructor
  · intro exposed
    rw [Cover.exposes, Bool.and_eq_true, Bool.not_eq_true', beq_iff_eq] at exposed
    obtain ⟨quotation, depth⟩ := cover
    obtain ⟨outside, -⟩ := Quotation.next_of_not_covers exposed.1
    simp_all
  · rintro rfl
    by_contra covered
    have marked : separator ∈ marks := by
      simpa [Cover.exposes, Quotation.covers] using covered
    simp [Cover.next, Quotation.next, Quotation.covers, marked] at plain

theorem isCut_eq_true_iff {c : Char} :
    isCut separator (c, cover.exposes c) = true ↔ c = separator ∧ cover = {} := by
  rw [isCut, Bool.and_eq_true, beq_iff_eq]
  constructor
  · rintro ⟨exposed, rfl⟩
    exact ⟨rfl, (exposes_iff plain).1 exposed⟩
  · rintro ⟨rfl, closed⟩
    exact ⟨(exposes_iff plain).2 closed, rfl⟩

theorem Unexposed.isCut_eq_false (unexposed : Unexposed separator cover cs) :
    ∀ member ∈ expose cover cs, isCut separator member = false := by
  induction cs generalizing cover with
  | nil => exact List.forall_mem_nil _
  | cons c rest ih =>
      obtain ⟨first, others⟩ := atEvery_cons_iff.1 unexposed
      rw [expose, List.forall_mem_cons, Bool.eq_false_iff, Ne, isCut_eq_true_iff plain]
      exact ⟨fun here => first here.1 here.2, ih others⟩

theorem expose_append_cons (closed : IsClosed front) (back : List Char) :
    expose {} (front ++ separator :: back) =
      expose {} front ++ (separator, true) :: expose {} back := by
  have exposed : Cover.exposes {} separator = true := (exposes_iff plain).2 rfl
  have after : Cover.after {} front = {} := closed
  rw [expose_append, after, expose, exposed, plain]

/-- A text is cut where nothing is open. -/
theorem splitExposed_append_cons (closed : IsClosed front) (back : List Char) :
    splitExposed separator (front ++ separator :: back) =
      splitExposed separator front ++ splitExposed separator back := by
  have cut : isCut separator (separator, true) = true := by simp [isCut]
  rw [splitExposed, expose_append_cons plain closed, List.splitOnP_append_cons _ _ cut,
    List.map_append]
  rfl

theorem Unexposed.splitExposed_eq (unexposed : Unexposed separator {} cs) :
    splitExposed separator cs = [cs] := by
  rw [splitExposed, List.splitOnP_eq_singleton (unexposed.isCut_eq_false plain),
    List.map_singleton, map_fst_expose]

theorem Unexposed.cutExposed?_eq (unexposed : Unexposed separator {} cs) :
    cutExposed? separator cs = none := by
  have kept : ∀ member ∈ expose {} cs, (!isCut separator member) = true := fun member inside =>
    Bool.not_eq_true' _ ▸ unexposed.isCut_eq_false plain member inside
  rw [cutExposed?, List.dropWhile_eq_nil_iff.2 kept]

/-- The text is cut where the specification cuts it. -/
theorem Cut.cutExposed?_eq (cut : Cut separator cs front back) :
    cutExposed? separator cs = some (front, back) := by
  have kept : ∀ member ∈ expose {} front, (!isCut separator member) = true :=
    fun member inside => Bool.not_eq_true' _ ▸ cut.unexposed.isCut_eq_false plain member inside
  have here : (!isCut separator (separator, true)) = false := by simp [isCut]
  rw [cutExposed?, cut.whole, expose_append_cons plain cut.closed,
    List.dropWhile_append_of_pos kept, List.takeWhile_append_of_pos kept,
    List.dropWhile_cons_of_neg (Bool.not_eq_true _ ▸ here),
    List.takeWhile_cons_of_neg (Bool.not_eq_true _ ▸ here), List.append_nil]
  simp only [map_fst_expose]

/-- Parts with separators between them are cut into these parts. -/
theorem Parts.splitExposed_intercalate {parts : List (List Char)}
    (isCutting : Parts separator parts) :
    splitExposed separator ([separator].intercalate parts) = parts := by
  induction isCutting with
  | last unexposed =>
      rw [List.intercalate_singleton]
      exact unexposed.splitExposed_eq plain
  | @cons part rest unexposed closed others ih =>
      obtain ⟨next, more, rfl⟩ := others.exists_cons
      rw [List.intercalate_cons_cons, List.append_assoc, List.singleton_append,
        splitExposed_append_cons plain closed, unexposed.splitExposed_eq plain, ih,
        List.singleton_append]

/-- What a text is cut into are parts, and the separators are all that is taken out. -/
theorem parts_splitExposed (cs : List Char) :
    Parts separator (splitExposed separator cs) ∧
      [separator].intercalate (splitExposed separator cs) = cs := by
  obtain ⟨parts, isCutting, rfl⟩ := exists_parts separator cs
  rw [isCutting.splitExposed_intercalate plain]
  exact ⟨isCutting, rfl⟩

end Plain

end Style
end Pagelet
