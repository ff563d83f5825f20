import Mathlib
import Pagelet.Encoding.Declaration
import Pagelet.Proofs.Text.Numerals
import Pagelet.Proofs.Text.Trimming

/-!
# Declarations in order

The search for a declared encoding tries the declarations of a text in order.  What a
declaration reads of a text that goes on depends on how the text breaks it off: a label
that is settled stays as it is, an open quote is none until its mark comes, and a bare label
takes in more characters up to the next one that ends it.
-/

namespace Pagelet
namespace Encoding

open Text (asciiLowercase isBlank trim trimStart)

variable {cs front spelling behind run more label : List Char} {c mark : Char}

/-- The text behind each keyword, in order. -/
def declarations : List Char → List (List Char)
  | [] => []
  | c :: rest =>
      let cs := c :: rest
      if asciiLowercase (cs.take keyword.length) = keyword then
        cs.drop keyword.length :: declarations rest
      else declarations rest

/-- The label declared is the first that stands behind a declaration. -/
theorem declaredLabel?_eq_findSome? (cs : List Char) :
    declaredLabel? cs = (declarations cs).findSome? label? := by
  induction cs with
  | nil => rfl
  | cons c rest ih =>
      rw [declaredLabel?, declarations]
      split
      · rw [List.findSome?_cons, ih]
        cases label? ((c :: rest).drop keyword.length) with
        | none => rfl
        | some label => rfl
      · exact ih

/-- A keyword stands in the text, and what it declares behind it. -/
def Precedes (cs behind : List Char) : Prop :=
  ∃ front spelling, cs = front ++ spelling ++ behind ∧ asciiLowercase spelling = keyword

/-- What stands behind a declaration is preceded by the text up to it. -/
theorem precedes_of_mem_declarations (member : behind ∈ declarations cs) :
    Precedes cs behind := by
  induction cs with
  | nil => cases member
  | cons c rest ih =>
      have further (inRest : behind ∈ declarations rest) : Precedes (c :: rest) behind := by
        obtain ⟨front, spelling, rfl, same⟩ := ih inRest
        exact ⟨c :: front, spelling, rfl, same⟩
      rw [declarations] at member
      split at member
      · next here =>
        rcases List.mem_cons.1 member with rfl | inRest
        · exact ⟨[], _, (List.take_append_drop _ _).symm, here⟩
        · exact further inRest
      · exact further member

theorem keyword_eq_cons : keyword = 'c' :: ['h', 'a', 'r', 's', 'e', 't', '='] :=
  rfl

/-- Every keyword begins with this letter, and holds it nowhere else. -/
theorem declarations_append_of_ne (other : ∀ c ∈ front, c.toLower ≠ 'c') (cs : List Char) :
    declarations (front ++ cs) = declarations cs := by
  induction front with
  | nil => rfl
  | cons c rest ih =>
      obtain ⟨first, others⟩ := List.forall_mem_cons.1 other
      rw [List.cons_append, declarations]
      rw [if_neg, ih others]
      intro same
      exact first (List.cons.inj same).1

theorem length_of_keyword (same : asciiLowercase spelling = keyword) :
    spelling.length = keyword.length := by
  rw [← same, asciiLowercase, List.length_map]

/-- Behind its first letter a keyword holds none that begins one. -/
theorem toLower_ne_of_mem_tail (same : asciiLowercase (c :: front) = keyword) :
    ∀ d ∈ front, d.toLower ≠ 'c' := by
  intro d member begins
  rw [keyword_eq_cons] at same
  have lower := List.mem_map_of_mem member (f := Char.toLower)
  rw [(List.cons.inj same).2, begins] at lower
  exact absurd lower (by decide)

/-- The keyword declares what stands behind it, in any spelling. -/
theorem declarations_keyword (same : asciiLowercase spelling = keyword) (behind : List Char) :
    declarations (spelling ++ behind) = behind :: declarations behind := by
  cases spelling with
  | nil => cases same
  | cons c rest =>
      have size := length_of_keyword same
      have taken : (c :: rest ++ behind).take keyword.length = c :: rest := List.take_left' size
      have dropped : (c :: rest ++ behind).drop keyword.length = behind := List.drop_left' size
      rw [List.cons_append] at taken dropped ⊢
      rw [declarations, taken, dropped, if_pos same,
        declarations_append_of_ne (toLower_ne_of_mem_tail same)]

/-- Each declaration stands in what those in front of it read. -/
theorem pairwise_declarations (cs : List Char) : (declarations cs).Pairwise Precedes := by
  induction cs with
  | nil => exact .nil
  | cons c rest ih =>
      by_cases here : asciiLowercase ((c :: rest).take keyword.length) = keyword
      · have whole := List.take_append_drop keyword.length (c :: rest)
        have both := declarations_keyword here ((c :: rest).drop keyword.length)
        rw [whole] at both
        have further : declarations rest = declarations ((c :: rest).drop keyword.length) := by
          rw [declarations, if_pos here] at both
          exact (List.cons.inj both).2
        rw [both, ← further]
        refine .cons (fun behind member => ?_) ih
        exact precedes_of_mem_declarations (further ▸ member)
      · rwa [declarations, if_neg here]

/-- A text shorter than the keyword declares nothing. -/
theorem declarations_eq_nil (short : cs.length < keyword.length) : declarations cs = [] := by
  refine List.eq_nil_iff_forall_not_mem.2 fun behind member => ?_
  obtain ⟨front, spelling, rfl, same⟩ := precedes_of_mem_declarations member
  have size := length_of_keyword same
  simp only [List.length_append] at short
  omega

/-- Whether a declaration begins at a character is settled by as many characters as the keyword
has. -/
theorem declarations_cons_append {rest : List Char}
    (long : keyword.length ≤ (c :: rest).length) (more : List Char) :
    declarations (c :: rest ++ more) =
      if asciiLowercase ((c :: rest).take keyword.length) = keyword then
        ((c :: rest).drop keyword.length ++ more) :: declarations (rest ++ more)
      else declarations (rest ++ more) := by
  have taken : (c :: rest ++ more).take keyword.length = (c :: rest).take keyword.length :=
    List.take_append_of_le_length long
  have dropped : (c :: rest ++ more).drop keyword.length =
      (c :: rest).drop keyword.length ++ more := List.drop_append_of_le_length long
  rw [List.cons_append] at taken dropped ⊢
  rw [declarations, taken, dropped]

/-- A longer text has the same declarations, and perhaps more behind them. -/
theorem declarations_append (cs more : List Char) :
    ∃ later, declarations (cs ++ more) = (declarations cs).map (· ++ more) ++ later := by
  induction cs with
  | nil => exact ⟨declarations more, rfl⟩
  | cons c rest ih =>
      by_cases short : (c :: rest).length < keyword.length
      · exact ⟨declarations (c :: rest ++ more), by rw [declarations_eq_nil short]; rfl⟩
      · obtain ⟨later, further⟩ := ih
        refine ⟨later, ?_⟩
        rw [declarations_cons_append (Nat.le_of_not_lt short), declarations, further]
        split <;> rfl

/-- Characters that no keyword holds complete none. -/
theorem declarations_append_of_foreign (foreign : ∀ c ∈ more, c.toLower ∉ keyword)
    (cs : List Char) : declarations (cs ++ more) = (declarations cs).map (· ++ more) := by
  have complete {cs front spelling behind : List Char} (same : asciiLowercase spelling = keyword)
      (whole : cs ++ more = front ++ spelling ++ behind) : spelling.length ≤ cs.length := by
    by_contra longer
    obtain ⟨inner, rfl, -⟩ | ⟨cut, ends, rfl⟩ := List.append_eq_append_iff.1 whole.symm
    · simp only [List.length_append] at longer
      omega
    · -- the last character of the keyword would be one of the further text
      have notEmpty : spelling ≠ [] := by
        rintro rfl
        exact longer (Nat.zero_le _)
      have filled : cut ≠ [] := by
        rintro rfl
        have size := congrArg List.length ends
        simp only [List.length_append, List.length_nil] at size
        omega
      have last := congrArg List.getLast? ends
      rw [List.getLast?_append, List.getLast?_append, List.getLast?_eq_getLast_of_ne_nil notEmpty,
        List.getLast?_eq_getLast_of_ne_nil filled, Option.some_or, Option.some_or,
        Option.some_inj] at last
      refine foreign _ (List.mem_append_left _ (List.getLast_mem filled)) ?_
      rw [← last, ← same]
      exact List.mem_map_of_mem (List.getLast_mem notEmpty)
  induction cs with
  | nil =>
      refine List.eq_nil_iff_forall_not_mem.2 fun behind member => ?_
      obtain ⟨front, spelling, whole, same⟩ := precedes_of_mem_declarations member
      have bound := complete same whole
      rw [length_of_keyword same] at bound
      exact absurd bound (by decide)
  | cons c rest ih =>
      by_cases short : (c :: rest).length < keyword.length
      · rw [declarations_eq_nil short]
        refine List.eq_nil_iff_forall_not_mem.2 fun behind member => ?_
        obtain ⟨front, spelling, whole, same⟩ := precedes_of_mem_declarations member
        have bound := complete same whole
        rw [length_of_keyword same] at bound
        omega
      · rw [declarations_cons_append (Nat.le_of_not_lt short), declarations, ih]
        split <;> rfl

theorem trimStart_append_of_ne_nil (begins : trimStart behind ≠ []) (more : List Char) :
    trimStart (behind ++ more) = trimStart behind ++ more := by
  rw [trimStart, List.dropWhile_append, if_neg]
  · rfl
  · rwa [List.isEmpty_iff]

/-- The label begins in the text, and ends in it too. -/
def Settled (behind : List Char) : Prop :=
  ∃ c rest, trimStart behind = c :: rest ∧
    if c = '"' ∨ c = '\'' then c ∈ rest else ∃ d ∈ c :: rest, endsLabel d = true

/-- The label begins with the mark, and the text does not close it. -/
def OpensQuote (mark : Char) (behind : List Char) : Prop :=
  (mark = '"' ∨ mark = '\'') ∧ ∃ rest, trimStart behind = mark :: rest ∧ mark ∉ rest

/-- The label begins bare, and nothing in the text ends it. -/
def RunsOn (behind : List Char) : Prop :=
  trimStart behind ≠ [] ∧ ∀ c ∈ trimStart behind, endsLabel c = false

/-- A label that begins in the text is settled, an open quote, or runs on. -/
theorem settled_or_opensQuote_or_runsOn (begins : trimStart behind ≠ []) :
    Settled behind ∨ (∃ mark, OpensQuote mark behind) ∨ RunsOn behind := by
  obtain ⟨c, rest, front⟩ := List.exists_cons_of_ne_nil begins
  by_cases quote : c = '"' ∨ c = '\''
  · by_cases closed : c ∈ rest
    · exact .inl ⟨c, rest, front, by rwa [if_pos quote]⟩
    · exact .inr (.inl ⟨c, quote, rest, front, closed⟩)
  · by_cases ended : ∃ d ∈ c :: rest, endsLabel d = true
    · exact .inl ⟨c, rest, front, by rwa [if_neg quote]⟩
    · refine .inr (.inr ⟨begins, fun d member => ?_⟩)
      rw [front] at member
      exact Bool.eq_false_iff.2 fun ends => ended ⟨d, member, ends⟩

/-- A label that goes on behind the text is not settled by it. -/
theorem RunsOn.not_settled (runsOn : RunsOn behind) : ¬ Settled behind := by
  rintro ⟨c, rest, front, ends⟩
  have inside := runsOn.2
  rw [front] at inside
  split at ends
  · next quote =>
    have open' := inside c List.mem_cons_self
    rcases quote with rfl | rfl <;> exact absurd open' (by decide)
  · obtain ⟨d, member, stops⟩ := ends
    rw [inside d member] at stops
    cases stops

/-- A span that ends inside the text ends there whatever comes behind it. -/
theorem takeWhile_append_of_mem {p : Char → Bool} {d : Char} (member : d ∈ cs)
    (stops : p d = false) (more : List Char) :
    (cs ++ more).takeWhile p = cs.takeWhile p := by
  rw [List.takeWhile_append, if_neg]
  intro whole
  have all := List.takeWhile_eq_self_iff.1 (List.takeWhile_prefix p |>.eq_of_length whole)
  rw [all d member] at stops
  cases stops

/-- A settled label stays as it is. -/
theorem label?_append_of_settled (settled : Settled behind) (more : List Char) :
    label? (behind ++ more) = label? behind := by
  obtain ⟨c, rest, front, ends⟩ := settled
  have begins : trimStart behind ≠ [] := front ▸ List.cons_ne_nil c rest
  have written : writtenLabel? (c :: rest ++ more) = writtenLabel? (c :: rest) := by
    rw [List.cons_append, writtenLabel?, writtenLabel?]
    split
    · next quote =>
      rw [if_pos quote] at ends
      have stops : (rest ++ more).takeWhile (· != c) = rest.takeWhile (· != c) :=
        takeWhile_append_of_mem (p := (· != c)) ends (bne_self_eq_false c) more
      rw [stops, if_pos, if_pos]
      · exact List.contains_iff_mem.2 ends
      · exact List.contains_iff_mem.2 (List.mem_append_left more ends)
    · next bare =>
      rw [if_neg bare] at ends
      obtain ⟨d, member, stops⟩ := ends
      rw [← List.cons_append, takeWhile_append_of_mem member (by simpa using stops)]
  rw [label?, trimStart_append_of_ne_nil begins, front, written, label?, front]

/-- An open quote is none without its mark, and ends at the first one. -/
theorem label?_append_of_opensQuote {rest : List Char} (quote : mark = '"' ∨ mark = '\'')
    (front : trimStart behind = mark :: rest) (unclosed : mark ∉ rest) (more : List Char) :
    label? (behind ++ more) =
      if mark ∈ more then
        (some (trim (rest ++ more.takeWhile (· != mark)))).filter (!·.isEmpty)
      else none := by
  have begins : trimStart behind ≠ [] := front ▸ List.cons_ne_nil mark rest
  have written : writtenLabel? (mark :: rest ++ more) =
      if mark ∈ more then some (rest ++ more.takeWhile (· != mark)) else none := by
    have inside : ∀ c ∈ rest, (c != mark) = true := fun c member =>
      bne_iff_ne.2 fun same => unclosed (same ▸ member)
    rw [List.cons_append, writtenLabel?, if_pos quote, List.takeWhile_append_of_pos inside]
    simp only [List.contains_iff_mem, List.mem_append, unclosed, false_or]
  rw [label?, trimStart_append_of_ne_nil begins, front, written]
  split <;> rfl

theorem trim_eq_self_of_solid (solid : ∀ c ∈ cs, isBlank c = false) : trim cs = cs := by
  have starts {cs : List Char} (solid : ∀ c ∈ cs, isBlank c = false) :
      Text.startsBlank cs = false := by
    cases cs with
    | nil => rfl
    | cons c rest => exact solid c List.mem_cons_self
  exact Text.trim_eq_self (starts solid)
    (starts fun c member => solid c (List.mem_reverse.1 member))

/-- A bare label takes in what comes before the next character that ends it. -/
theorem label?_append_of_runsOn (runsOn : RunsOn behind) (more : List Char) :
    label? (behind ++ more) = some (trimStart behind ++ more.takeWhile (!endsLabel ·)) := by
  obtain ⟨begins, inside⟩ := runsOn
  obtain ⟨c, rest, front⟩ := List.exists_cons_of_ne_nil begins
  rw [front] at inside
  have bare : ¬ (c = '"' ∨ c = '\'') := by
    rintro (rfl | rfl) <;> exact absurd (inside _ List.mem_cons_self) (by decide)
  have written : writtenLabel? (c :: rest ++ more) =
      some (c :: rest ++ more.takeWhile (!endsLabel ·)) := by
    have inside' : ∀ d ∈ c :: rest, (!endsLabel d) = true := by simpa using inside
    rw [List.cons_append, writtenLabel?, if_neg bare, ← List.cons_append,
      List.takeWhile_append_of_pos inside']
  have solid : ∀ d ∈ c :: rest ++ more.takeWhile (!endsLabel ·), isBlank d = false := by
    intro d member
    have open' : endsLabel d = false := by
      rcases List.mem_append.1 member with inFront | inMore
      · exact inside d inFront
      · simpa using List.mem_takeWhile_imp inMore
    exact (Bool.or_eq_false_iff.1 open').1
  rw [label?, trimStart_append_of_ne_nil begins, front, written, Option.map_some,
    trim_eq_self_of_solid solid]
  rfl

/-- The number of characters that are no blanks. -/
def solidCount (cs : List Char) : Nat :=
  cs.countP (!isBlank ·)

theorem solidCount_append (front rest : List Char) :
    solidCount (front ++ rest) = solidCount front + solidCount rest :=
  List.countP_append

theorem solidCount_eq_zero (blank : Text.IsBlankText cs) : solidCount cs = 0 :=
  List.countP_eq_zero.2 fun c member => by simp [blank c member]

/-- Trimming takes blanks alone. -/
theorem solidCount_trim (cs : List Char) : solidCount (trim cs) = solidCount cs := by
  obtain ⟨lead, tail, leadBlank, tailBlank, whole⟩ := Text.exists_eq_append_trim cs
  have count := congrArg solidCount whole
  rw [solidCount_append, solidCount_append, solidCount_eq_zero leadBlank,
    solidCount_eq_zero tailBlank] at count
  omega

theorem solidCount_trimStart (cs : List Char) : solidCount (trimStart cs) = solidCount cs := by
  have lead : Text.IsBlankText (cs.takeWhile isBlank) := fun c member =>
    List.mem_takeWhile_imp member
  have count := solidCount_append (cs.takeWhile isBlank) (cs.dropWhile isBlank)
  rw [List.takeWhile_append_dropWhile, solidCount_eq_zero lead, Nat.zero_add] at count
  exact count.symm

theorem isBlank_toLower (c : Char) : isBlank c.toLower = isBlank c := by
  simp only [isBlank, Text.toNat_toLower]
  split
  · rw [Bool.eq_iff_iff]
    simp only [Bool.or_eq_true, Bool.and_eq_true, decide_eq_true_eq, beq_iff_eq]
    omega
  · rfl

/-- The keyword is visible in all its characters. -/
theorem solidCount_keyword (same : asciiLowercase spelling = keyword) :
    solidCount spelling = keyword.length := by
  have solid : ∀ c ∈ keyword, isBlank c = false := by simp [keyword_eq_cons, isBlank]
  rw [← length_of_keyword same]
  refine List.countP_eq_length.2 fun c member => ?_
  have lower : c.toLower ∈ keyword := same ▸ List.mem_map_of_mem member
  simpa [isBlank_toLower] using solid _ lower

/-- A label is spelled by characters of the text behind the declaration, in order. -/
theorem sublist_of_writtenLabel? (written : writtenLabel? cs = some label) :
    label.Sublist cs := by
  cases cs with
  | nil => cases written
  | cons c rest =>
      rw [writtenLabel?] at written
      split at written
      · obtain ⟨-, same⟩ := Option.ite_none_right_eq_some.1 written
        obtain rfl := Option.some.inj same
        exact (List.takeWhile_sublist _).trans (List.sublist_cons_self c rest)
      · obtain rfl := Option.some.inj written
        exact List.takeWhile_sublist _

/-- A label holds no more solid characters than what it is read from. -/
theorem solidCount_le_of_label? (read : label? cs = some label) :
    solidCount label ≤ solidCount cs := by
  obtain ⟨trimmed, -⟩ := Option.filter_eq_some_iff.1 read
  obtain ⟨written, found, rfl⟩ := Option.map_eq_some_iff.1 trimmed
  calc
    solidCount (trim written) = solidCount written := solidCount_trim written
    _ ≤ solidCount (trimStart cs) := (sublist_of_writtenLabel? found).countP_le
    _ = solidCount cs := solidCount_trimStart cs

/-- What stands in front of another declaration is not blank. -/
theorem Precedes.begins {earlier : List Char} (precedes : Precedes earlier behind) :
    trimStart earlier ≠ [] := by
  obtain ⟨front, spelling, rfl, same⟩ := precedes
  have size : keyword.length = 8 := rfl
  have count := solidCount_trimStart (front ++ spelling ++ behind)
  rw [solidCount_append, solidCount_append, solidCount_keyword same] at count
  intro empty
  rw [empty, solidCount, List.countP_nil] at count
  omega

/-- A declaration whose open quote is closed further on reads more than any declaration that
stands in the quote. -/
theorem exists_label?_append {earlier edge beyond : List Char} (precedes : Precedes earlier behind)
    (opens : OpensQuote mark earlier) (closed : mark ∈ beyond)
    (read : label? (behind ++ edge) = some label) (short : edge.length ≤ 1) :
    ∃ longer, label? (earlier ++ beyond) = some longer ∧ solidCount label < solidCount longer := by
  obtain ⟨front, spelling, whole, same⟩ := precedes
  obtain ⟨quote, rest, begins, unclosed⟩ := opens
  have inside : solidCount earlier ≤ 1 + solidCount rest := by
    rw [← solidCount_trimStart, begins, solidCount, List.countP_cons, Nat.add_comm, solidCount]
    split <;> omega
  have size : keyword.length = 8 := rfl
  have atMost := solidCount_le_of_label? read
  have one : solidCount edge ≤ 1 := (List.countP_le_length).trans short
  rw [whole, solidCount_append, solidCount_append, solidCount_keyword same] at inside
  rw [solidCount_append] at atMost
  have count := solidCount_trim (rest ++ beyond.takeWhile (· != mark))
  rw [solidCount_append] at count
  have more : solidCount label < solidCount (trim (rest ++ beyond.takeWhile (· != mark))) := by
    omega
  refine ⟨_, ?_, more⟩
  rw [label?_append_of_opensQuote quote begins unclosed, if_pos closed]
  refine Option.filter_eq_some_iff.2 ⟨rfl, ?_⟩
  rw [Bool.not_eq_true', List.isEmpty_eq_false_iff]
  intro empty
  rw [empty] at more
  exact Nat.not_lt_zero _ more

end Encoding
end Pagelet
