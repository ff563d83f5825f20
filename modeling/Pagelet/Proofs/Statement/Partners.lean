import Mathlib
import Pagelet.Proofs.Statement.Nesting
import Pagelet.Proofs.Text.Offsets

/-!
# Partners of brackets

The partner of a bracket is looked for by counting: up at every opening bracket outside
strings, down at every closing one, until as many are closed as were opened.  The search
below counts in words of 32 bits, gives the partner's place in bytes, and would report a count
that leaves the range of a word at either end.  It ends at the first place where the counts are
even, and the cuts made there are those of `enclosed?`, which counts without a bound.
-/

namespace Pagelet
namespace Script

open Text (Quotation isBoundary between)

/-- How a search for the partner of a bracket ends. -/
inductive Search
  /-- The partner begins at the offset. -/
  | found (offset : Nat)
  /-- The bracket has no partner. -/
  | missing
  /-- A bracket was closed while none was open. -/
  | underflow
  /-- A bracket was opened while as many were open as a word can count. -/
  | overflow
deriving DecidableEq, Repr

/-- The search in a text that begins at the offset, with `depth` brackets open. -/
def searchFrom (bracket : Bracket) : UInt32 → Quotation → Nat → List Char → Search
  | _, _, _, [] => .missing
  | depth, state, offset, c :: rest =>
      let read (depth : UInt32) :=
        searchFrom bracket depth (state.next marks c) (offset + c.utf8Size) rest
      if state.covers marks c then read depth
      else if c = bracket.opening then
        if depth + 1 = 0 then .overflow else read (depth + 1)
      else if c = bracket.closing then
        if depth = 0 then .underflow
        else if depth - 1 = 0 then .found offset
        else read (depth - 1)
      else read depth

/-- The search for the partner of the bracket that a text begins with. -/
def partner (bracket : Bracket) (text : String) : Search :=
  if text.toList.head? = some bracket.opening then
    searchFrom bracket 0 .outside 0 text.toList
  else .missing

/-- The characters outside strings, for a scanner that begins in the state. -/
def unquoted : Quotation → List Char → List Char
  | _, [] => []
  | state, c :: rest =>
      if state.covers marks c then unquoted (state.next marks c) rest
      else c :: unquoted (state.next marks c) rest

/-- Of the brackets that stand open before the text and those that it opens up to the character
at the offset, and with it, it leaves so many open; brackets in strings do not count. -/
def LeavesFrom (bracket : Bracket) (depth : Nat) (state : Quotation) (cs : List Char)
    (left offset : Nat) : Prop :=
  ∃ front c behind, cs = front ++ c :: behind ∧ String.utf8Len front = offset ∧
    left + (unquoted state (front ++ [c])).count bracket.closing =
      depth + (unquoted state (front ++ [c])).count bracket.opening

/-- Up to the character at the offset, and with it, the text opens so many brackets more than it
closes. -/
def LeavesAt (bracket : Bracket) (text : String) (left offset : Nat) : Prop :=
  LeavesFrom bracket 0 .outside text.toList left offset

/-- Up to the character at the offset, and with it, the text closes as many brackets as
it opens. -/
def EvenAt (bracket : Bracket) (text : String) (offset : Nat) : Prop :=
  LeavesAt bracket text 0 offset

section Leaves

variable {bracket : Bracket} {depth after left : Nat} {state : Quotation} {c : Char}
  {rest : List Char} {offset : Nat}

/-- The characters outside strings are those of the two parts. -/
theorem unquoted_append (state : Quotation) (front back : List Char) :
    unquoted state (front ++ back) =
      unquoted state front ++ unquoted (state.after marks front) back := by
  induction front generalizing state with
  | nil => rfl
  | cons c rest ih =>
      rw [List.cons_append, unquoted, unquoted, ih, Quotation.after_cons]
      split
      · rfl
      · rw [List.cons_append]

/-- Nothing is left open at a place that is not there. -/
theorem not_leavesFrom_nil : ¬ LeavesFrom bracket depth state [] left offset := by
  rintro ⟨front, c, behind, whole, -⟩
  simp at whole

/-- What is left open at the first character is what it leaves; what is left open further on is
counted on from there. -/
theorem leavesFrom_cons
    (counted : after + (unquoted state [c]).count bracket.closing =
      depth + (unquoted state [c]).count bracket.opening) :
    LeavesFrom bracket depth state (c :: rest) left offset ↔
      (offset = 0 ∧ after = left) ∨
        ∃ further, offset = c.utf8Size + further ∧
          LeavesFrom bracket after (state.next marks c) rest left further := by
  have split (front : List Char) : unquoted state (c :: front) =
      unquoted state [c] ++ unquoted (state.next marks c) front :=
    unquoted_append state [c] front
  constructor
  · rintro ⟨front, d, behind, whole, rfl, leaves⟩
    cases front with
    | nil =>
        obtain ⟨rfl, -⟩ := List.cons.inj whole
        rw [List.nil_append] at leaves
        exact .inl ⟨rfl, by omega⟩
    | cons first front =>
        obtain ⟨rfl, others⟩ := List.cons.inj whole
        rw [List.cons_append, split, List.count_append, List.count_append] at leaves
        exact .inr ⟨_, Nat.add_comm _ _, front, d, behind, others, rfl, by omega⟩
  · rintro (⟨rfl, rfl⟩ | ⟨_, rfl, front, d, behind, rfl, rfl, leaves⟩)
    · exact ⟨[], c, rest, rfl, rfl, by rw [List.nil_append]; omega⟩
    · refine ⟨c :: front, d, behind, rfl, Nat.add_comm _ _, ?_⟩
      rw [List.cons_append, split, List.count_append, List.count_append]
      omega

/-- No place leaves more brackets open than the text opens. -/
theorem le_count_of_leavesAt {text : String} (leaves : LeavesAt bracket text left offset) :
    left ≤ (unquoted .outside text.toList).count bracket.opening := by
  obtain ⟨front, c, behind, whole, -, counted⟩ := leaves
  have parts : unquoted .outside text.toList = unquoted .outside (front ++ [c]) ++
      unquoted (Quotation.outside.after marks (front ++ [c])) behind := by
    rw [whole, ← unquoted_append, List.append_assoc, List.singleton_append]
  rw [parts, List.count_append]
  omega

end Leaves

/-- The answer is right for a text that begins at the offset, of which the relation tells how many
brackets it leaves open at a place.  A search is over at the first place that leaves none open, or
more than a word can count. -/
def Search.Answers (leaves : Nat → Nat → Prop) (offset : Nat) : Search → Prop
  | .found place => ∃ further, place = offset + further ∧ leaves 0 further ∧
      ∀ earlier < further, ¬ leaves 0 earlier ∧ ¬ leaves UInt32.size earlier
  | .missing => ∀ further, ¬ leaves 0 further ∧ ¬ leaves UInt32.size further
  | .underflow => False
  | .overflow => ∃ further, leaves UInt32.size further ∧
      ∀ earlier ≤ further, ¬ leaves 0 earlier

section Exact

variable {search : Search} {leaves : Nat → Nat → Prop} {place : Nat}

/-- Nowhere is a bracket closed while none is open. -/
theorem Search.Answers.ne_underflow (answers : search.Answers leaves 0) :
    search ≠ .underflow := by
  rintro rfl
  exact answers

/-- The count runs over just if there is a place that leaves too many brackets open, up to which
none leaves no bracket open. -/
theorem Search.Answers.eq_overflow_iff (answers : search.Answers leaves 0) :
    search = .overflow ↔
      ∃ place, leaves UInt32.size place ∧ ∀ earlier ≤ place, ¬ leaves 0 earlier := by
  cases search with
  | found other =>
      obtain ⟨further, -, isEven, first⟩ := answers
      refine ⟨by simp, ?_⟩
      rintro ⟨place, isFull, uneven⟩
      exact absurd isEven (uneven further
        (Nat.le_of_not_lt fun before => (first place before).2 isFull))
  | missing =>
      refine ⟨by simp, ?_⟩
      rintro ⟨place, isFull, -⟩
      exact absurd isFull (answers place).2
  | underflow => cases answers
  | overflow => exact ⟨fun _ => answers, fun _ => rfl⟩

variable (fits : ∀ place, ¬ leaves UInt32.size place)

include fits

/-- An even place without one in front of it is the one that is found. -/
theorem Search.Answers.eq_found_iff (answers : search.Answers leaves 0) :
    search = .found place ↔ leaves 0 place ∧ ∀ earlier < place, ¬ leaves 0 earlier := by
  cases search with
  | found other =>
      obtain ⟨further, rfl, isEven, first⟩ := answers
      rw [Nat.zero_add, Search.found.injEq]
      constructor
      · rintro rfl
        exact ⟨isEven, fun earlier before => (first earlier before).1⟩
      · rintro ⟨isEven', first'⟩
        exact Nat.le_antisymm (Nat.le_of_not_lt fun before => (first _ before).1 isEven')
          (Nat.le_of_not_lt fun before => first' _ before isEven)
  | missing => exact ⟨by simp, fun isEven => absurd isEven.1 (answers place).1⟩
  | underflow => cases answers
  | overflow =>
      obtain ⟨further, isFull, -⟩ := answers
      exact absurd isFull (fits further)

/-- The partner is missed just if no place is even. -/
theorem Search.Answers.eq_missing_iff (answers : search.Answers leaves 0) :
    search = .missing ↔ ∀ place, ¬ leaves 0 place := by
  cases search with
  | found other =>
      obtain ⟨further, -, isEven, -⟩ := answers
      exact ⟨by simp, fun never => absurd isEven (never further)⟩
  | missing => exact ⟨fun _ place => (answers place).1, fun _ => rfl⟩
  | underflow => cases answers
  | overflow =>
      obtain ⟨further, isFull, -⟩ := answers
      exact absurd isFull (fits further)

end Exact

section Answers

variable {bracket : Bracket} {before after : Nat} {depth : UInt32} {state : Quotation} {c : Char}
  {rest : List Char} {offset : Nat}

/-- Behind a character that leaves brackets open, but not too many, the answer for the rest is the
answer for the whole. -/
theorem Search.Answers.cons {answer : Search} (opened : 0 < after) (fits : after < UInt32.size)
    (counted : after + (unquoted state [c]).count bracket.closing =
      before + (unquoted state [c]).count bracket.opening)
    (answers : answer.Answers (LeavesFrom bracket after (state.next marks c) rest)
      (offset + c.utf8Size)) :
    answer.Answers (LeavesFrom bracket before state (c :: rest)) offset := by
  have leaves_iff {left : Nat} (other : after ≠ left) (place : Nat) :
      LeavesFrom bracket before state (c :: rest) left place ↔
        ∃ further, place = c.utf8Size + further ∧
          LeavesFrom bracket after (state.next marks c) rest left further := by
    rw [leavesFrom_cons counted]
    simp [other]
  have even_iff := leaves_iff (Nat.ne_of_gt opened)
  have full_iff := leaves_iff (Nat.ne_of_lt fits)
  cases answer with
  | underflow => exact answers
  | missing =>
      intro place
      rw [even_iff, full_iff]
      refine ⟨?_, ?_⟩
      · rintro ⟨further, -, even⟩
        exact (answers further).1 even
      · rintro ⟨further, -, full⟩
        exact (answers further).2 full
  | found place =>
      obtain ⟨further, rfl, even, first⟩ := answers
      refine ⟨c.utf8Size + further, by omega, (even_iff _).2 ⟨further, rfl, even⟩, ?_⟩
      intro earlier lt
      rw [even_iff, full_iff]
      refine ⟨?_, ?_⟩
      · rintro ⟨there, rfl, even⟩
        exact (first there (by omega)).1 even
      · rintro ⟨there, rfl, full⟩
        exact (first there (by omega)).2 full
  | overflow =>
      obtain ⟨further, full, uneven⟩ := answers
      refine ⟨c.utf8Size + further, (full_iff _).2 ⟨further, rfl, full⟩, fun earlier le => ?_⟩
      rw [even_iff]
      rintro ⟨there, rfl, even⟩
      exact uneven there (by omega) even

/-- Where the count does not run over, it goes up by one. -/
theorem toNat_succ (room : depth + 1 ≠ 0) : (depth + 1).toNat = depth.toNat + 1 := by
  have bound := depth.toNat_lt
  have word : (depth + 1).toNat = (depth.toNat + 1) % 2 ^ 32 := by
    rw [UInt32.toNat_add, UInt32.toNat_one]
  have apart : (depth + 1).toNat ≠ 0 := fun zero => room (UInt32.toNat_inj.1 zero)
  omega

/-- The count runs over where a word is full. -/
theorem toNat_last (full : depth + 1 = 0) : depth.toNat + 1 = UInt32.size := by
  have bound := depth.toNat_lt
  have word : (depth + 1).toNat = (depth.toNat + 1) % 2 ^ 32 := by
    rw [UInt32.toNat_add, UInt32.toNat_one]
  rw [full, UInt32.toNat_zero] at word
  rw [UInt32.size]
  omega

/-- The count goes down by one where a bracket is open. -/
theorem toNat_pred (opened : depth ≠ 0) : (depth - 1).toNat + 1 = depth.toNat := by
  have positive : depth.toNat ≠ 0 := fun zero => opened (UInt32.toNat_inj.1 zero)
  have one_le : (1 : UInt32) ≤ depth := UInt32.le_iff_toNat_le.2 (Nat.pos_of_ne_zero positive)
  rw [UInt32.toNat_sub_of_le _ _ one_le, UInt32.toNat_one]
  omega

/-- With a bracket open the count never falls below zero, and the search ends at the
first even place unless the count runs over in front of it. -/
theorem answers_searchFrom (opened : depth ≠ 0) (cs : List Char) :
    (searchFrom bracket depth state offset cs).Answers
      (LeavesFrom bracket depth.toNat state cs) offset := by
  induction cs generalizing depth state offset with
  | nil => exact fun _ => ⟨not_leavesFrom_nil, not_leavesFrom_nil⟩
  | cons c rest ih =>
      have positive {depth : UInt32} (opened : depth ≠ 0) : 0 < depth.toNat :=
        Nat.pos_of_ne_zero fun zero => opened (UInt32.toNat_inj.1 zero)
      rw [searchFrom.eq_def]
      dsimp only
      split
      · next covered =>
        exact .cons (positive opened) depth.toNat_lt (by simp [unquoted, covered]) (ih opened)
      · next uncovered =>
        split
        · next opening =>
          subst opening
          have other := bracket.closing_ne_opening.symm
          split
          · next full =>
            have counted : UInt32.size + (unquoted state [bracket.opening]).count bracket.closing =
                depth.toNat + (unquoted state [bracket.opening]).count bracket.opening := by
              simp [unquoted, uncovered, other, toNat_last full]
            refine ⟨0, (leavesFrom_cons counted).2 (.inl ⟨rfl, rfl⟩), fun earlier le => ?_⟩
            obtain rfl := Nat.le_zero.1 le
            rw [leavesFrom_cons counted]
            rintro (⟨-, none⟩ | ⟨further, zero, -⟩)
            · cases none
            · have size := bracket.opening.utf8Size_pos
              omega
          · next room =>
            exact .cons (positive room) (depth + 1).toNat_lt
              (by simp [unquoted, uncovered, other, toNat_succ room]) (ih room)
        · next notOpening =>
          split
          · next closing =>
            subst closing
            have counted : (depth - 1).toNat +
                  (unquoted state [bracket.closing]).count bracket.closing =
                depth.toNat + (unquoted state [bracket.closing]).count bracket.opening := by
              simp [unquoted, uncovered, bracket.closing_ne_opening, toNat_pred opened]
            split
            · next last =>
              rw [last] at counted
              have even : LeavesFrom bracket depth.toNat state (bracket.closing :: rest) 0 0 :=
                (leavesFrom_cons counted).2 (.inl ⟨rfl, rfl⟩)
              exact ⟨0, rfl, even, by simp⟩
            · next further =>
              exact .cons (positive further) (depth - 1).toNat_lt counted (ih further)
          · next notClosing =>
            exact .cons (positive opened) depth.toNat_lt
              (by simp [unquoted, uncovered, notOpening, notClosing]) (ih opened)

/-- Unless its count runs over, the search ends at the bracket at which the matcher cuts. -/
theorem searchFrom_eq_closeFrom {further : Nat} (counts : depth.toNat = further + 1)
    (cs : List Char) :
    searchFrom bracket depth state offset cs = .overflow ∨
      searchFrom bracket depth state offset cs =
        match closeFrom bracket.opening bracket.closing further state cs with
        | some (inside, _) => .found (offset + String.utf8Len inside)
        | none => .missing := by
  induction cs generalizing depth further state offset with
  | nil => exact .inr rfl
  | cons c rest ih =>
      have reads {depth : UInt32} {further : Nat} (counts : depth.toNat = further + 1) :
          searchFrom bracket depth (state.next marks c) (offset + c.utf8Size) rest = .overflow ∨
          searchFrom bracket depth (state.next marks c) (offset + c.utf8Size) rest =
            match (closeFrom bracket.opening bracket.closing further (state.next marks c) rest).map
              fun parts => (c :: parts.1, parts.2) with
            | some (inside, _) => .found (offset + String.utf8Len inside)
            | none => .missing := by
        refine (ih counts).imp id fun same => ?_
        rw [same]
        cases closeFrom bracket.opening bracket.closing further (state.next marks c) rest with
        | none => rfl
        | some parts => simp only [Option.map_some, String.utf8Len_cons]; congr 1; omega
      have opened : depth ≠ 0 := by
        rintro rfl
        cases counts
      rw [searchFrom.eq_def, closeFrom.eq_def]
      dsimp only
      split
      · exact reads counts
      · split
        · split
          · exact .inl rfl
          · next room => exact reads (by rw [toNat_succ room, counts])
        · split
          · have less := toNat_pred opened
            cases further with
            | zero =>
                have last : depth - 1 = 0 := UInt32.toNat_inj.1 (by rw [UInt32.toNat_zero]; omega)
                rw [if_pos last]
                exact .inr rfl
            | succ further =>
                have more : depth - 1 ≠ 0 := by
                  intro last
                  rw [last, UInt32.toNat_zero] at less
                  omega
                rw [if_neg more]
                exact reads (by omega)
          · exact reads counts

/-- The matcher drops the closing bracket alone. -/
theorem eq_of_closeFrom {opening closing : Char} {further : Nat} {cs inside behind : List Char}
    (found : closeFrom opening closing further state cs = some (inside, behind)) :
    cs = inside ++ closing :: behind := by
  induction cs generalizing further state inside with
  | nil => simp [closeFrom] at found
  | cons c rest ih =>
      have reads (further : Nat)
          (found : (closeFrom opening closing further (state.next marks c) rest).map
            (fun parts => (c :: parts.1, parts.2)) = some (inside, behind)) :
          c :: rest = inside ++ closing :: behind := by
        obtain ⟨⟨front, back⟩, inner, parts⟩ := Option.map_eq_some_iff.1 found
        obtain ⟨rfl, rfl⟩ := Prod.mk.inj parts
        rw [ih inner, List.cons_append]
      rw [closeFrom.eq_def] at found
      dsimp only at found
      split at found
      · exact reads _ found
      · split at found
        · exact reads _ found
        · split at found
          · next closes =>
            split at found
            · obtain ⟨rfl, rfl⟩ := Prod.mk.inj (Option.some.inj found)
              rw [closes, List.nil_append]
            · exact reads _ found
          · exact reads _ found

end Answers

/-! ## Partners -/

/-- The texts on both sides of the partner, if there is one. -/
def Search.cut? (text : String) : Search → Option (List Char × List Char)
  | .found place =>
      some ((between text 1 place).toList, (between text (place + 1) text.utf8ByteSize).toList)
  | _ => none

section Partner

variable {bracket : Bracket} {text : String} {rest inside behind : List Char}

theorem utf8Size_opening (bracket : Bracket) : bracket.opening.utf8Size = 1 := by
  cases bracket <;> rfl

theorem utf8Size_closing (bracket : Bracket) : bracket.closing.utf8Size = 1 := by
  cases bracket <;> rfl

theorem next_opening_outside (bracket : Bracket) :
    Quotation.outside.next marks bracket.opening = .outside := by
  cases bracket <;> rfl

/-- The bracket at the front is counted first. -/
theorem partner_eq_searchFrom (begins : text.toList = bracket.opening :: rest) :
    partner bracket text = searchFrom bracket 1 .outside 1 rest := by
  have uncovered : Quotation.outside.covers marks bracket.opening = false := by
    cases bracket <;> rfl
  rw [partner, begins, List.head?_cons, if_pos rfl, searchFrom.eq_def]
  simp [uncovered, next_opening_outside, utf8Size_opening]

/-- The answer is right for a text that begins with the bracket. -/
theorem answers_partner (begins : text.toList = bracket.opening :: rest) :
    (partner bracket text).Answers (LeavesAt bracket text) 0 := by
  have counted : 1 + (unquoted .outside [bracket.opening]).count bracket.closing =
      0 + (unquoted .outside [bracket.opening]).count bracket.opening := by
    cases bracket <;> decide
  have answers : (searchFrom bracket 1 .outside 1 rest).Answers
      (LeavesFrom bracket 1 .outside rest) 1 := answers_searchFrom (by decide) rest
  unfold LeavesAt
  rw [partner_eq_searchFrom begins, begins]
  refine .cons Nat.one_pos (by decide) counted ?_
  rwa [next_opening_outside, utf8Size_opening]

/-- The matcher drops the two brackets alone. -/
theorem eq_of_enclosed? {opening closing : Char} {cs : List Char}
    (found : enclosed? opening closing cs = some (inside, behind)) :
    cs = opening :: (inside ++ closing :: behind) := by
  cases cs with
  | nil => simp [enclosed?] at found
  | cons c rest =>
      obtain ⟨rfl, closed⟩ := Option.ite_none_right_eq_some.1 found
      rw [eq_of_closeFrom closed]

/-- Unless its count runs over, the search ends where the matcher cuts. -/
theorem partner_eq_enclosed? (begins : text.toList = bracket.opening :: rest) :
    partner bracket text = .overflow ∨
      partner bracket text =
        match enclosed? bracket.opening bracket.closing text.toList with
        | some (inside, _) => .found (1 + String.utf8Len inside)
        | none => .missing := by
  rw [partner_eq_searchFrom begins, begins, enclosed?, if_pos rfl]
  exact searchFrom_eq_closeFrom rfl rest

/-- A text may be cut on both sides of its first bracket's partner. -/
theorem isBoundary_partner
    (whole : text.toList = bracket.opening :: (inside ++ bracket.closing :: behind)) :
    ∀ cut ∈ [1, 1 + String.utf8Len inside, 1 + String.utf8Len inside + 1],
      isBoundary text cut = true := by
  have opening := utf8Size_opening bracket
  have closing := utf8Size_closing bracket
  simp only [List.forall_mem_cons, List.not_mem_nil, false_imp_iff, implies_true, and_true]
  refine ⟨?_, ?_, ?_⟩
  · exact Text.isBoundary_of_append [bracket.opening] _ whole (by simp [opening])
  · exact Text.isBoundary_of_append (bracket.opening :: inside) _ whole
      (by rw [String.utf8Len_cons, opening, Nat.add_comm])
  · exact Text.isBoundary_of_append (bracket.opening :: inside ++ [bracket.closing]) behind
      (by simp [whole]) (by simp [opening, closing]; omega)

/-- The cuts leave what the brackets enclose and what comes behind. -/
theorem cut?_found
    (whole : text.toList = bracket.opening :: (inside ++ bracket.closing :: behind)) :
    (Search.found (1 + String.utf8Len inside)).cut? text = some (inside, behind) := by
  have opening := utf8Size_opening bracket
  have closing := utf8Size_closing bracket
  have size := String.utf8Len_toList text
  rw [whole] at size
  simp only [String.utf8Len_cons, String.utf8Len_append, opening, closing] at size
  have first : between text 1 (1 + String.utf8Len inside) = String.ofList inside :=
    Text.between_of_append [bracket.opening] inside _ whole (by simp [opening])
      (by simp [opening])
  have second : between text (1 + String.utf8Len inside + 1) text.utf8ByteSize =
      String.ofList behind :=
    Text.between_of_append (bracket.opening :: inside ++ [bracket.closing]) behind []
      (by simp [whole]) (by simp [opening, closing]; omega) (by simp [opening, closing]; omega)
  simp only [Search.cut?, first, second, String.toList_ofList]

end Partner

/-- Whatever the text, the count of open brackets never falls below zero, it runs over just if
some place leaves more brackets open than a word can count before any place is even, and the text
may be cut on both sides of a partner that is found.  If fewer brackets are opened than a word can
count, the search is exact: it ends at the first even place, it misses the partner only where no
place is even, and the bracket matcher cuts where it ends. -/
theorem partner_exact (bracket : Bracket) (rest : List Char) :
    let text := String.ofList (bracket.opening :: rest)
    partner bracket text ≠ .underflow ∧
    (partner bracket text = .overflow ↔ ∃ place, LeavesAt bracket text UInt32.size place ∧
      ∀ earlier ≤ place, ¬ EvenAt bracket text earlier) ∧
    (∀ place, partner bracket text = .found place →
      1 ≤ place ∧ ∀ cut ∈ [1, place, place + 1], isBoundary text cut = true) ∧
    ((unquoted .outside text.toList).count bracket.opening < UInt32.size →
      (∀ place, partner bracket text = .found place ↔
        EvenAt bracket text place ∧ ∀ earlier < place, ¬ EvenAt bracket text earlier) ∧
      (partner bracket text = .missing ↔ ∀ place, ¬ EvenAt bracket text place) ∧
      enclosed? bracket.opening bracket.closing text.toList =
        (partner bracket text).cut? text) := by
  intro text
  have begins : text.toList = bracket.opening :: rest := String.toList_ofList
  have answers := answers_partner begins
  have agrees := partner_eq_enclosed? begins
  refine ⟨answers.ne_underflow, answers.eq_overflow_iff, fun place found => ?_, fun few => ?_⟩
  · rw [found] at agrees
    split at agrees
    · next inside behind enclosed =>
      have same := Search.found.inj (agrees.resolve_left (by simp))
      rw [same]
      exact ⟨Nat.le_add_right 1 _, isBoundary_partner (eq_of_enclosed? enclosed)⟩
    · exact absurd agrees (by simp)
  · have fits (place : Nat) : ¬ LeavesAt bracket text UInt32.size place := fun full =>
      absurd (le_count_of_leavesAt full) (Nat.not_le.2 few)
    refine ⟨fun place => answers.eq_found_iff fits, answers.eq_missing_iff fits, ?_⟩
    have counted : partner bracket text ≠ .overflow := fun ranOver => by
      obtain ⟨place, full, -⟩ := answers.eq_overflow_iff.1 ranOver
      exact fits place full
    have ends := agrees.resolve_left counted
    split at ends
    · next inside behind enclosed => rw [ends, cut?_found (eq_of_enclosed? enclosed), enclosed]
    · next unclosed => rw [ends, unclosed]; rfl

/-- Brackets in strings do not count, and the text goes on behind the partner. -/
theorem partner_exact_quoted :
    let rest := "f(')') + \"\\\"(\"); g()".toList
    let text := String.ofList ('(' :: rest)
    (unquoted .outside text.toList).count '(' < UInt32.size ∧
      partner .paren text = .found 15 ∧
      EvenAt .paren text 15 ∧ (∀ earlier < 15, ¬ EvenAt .paren text earlier) ∧
      enclosed? '(' ')' text.toList = (Search.found 15).cut? text := by
  intro rest text
  have few : (unquoted .outside text.toList).count '(' < UInt32.size := by decide
  have found : partner .paren text = .found 15 := by decide
  obtain ⟨-, -, -, exact⟩ := partner_exact .paren rest
  obtain ⟨ends, -, cuts⟩ := exact few
  obtain ⟨even, first⟩ := (ends 15).1 found
  exact ⟨few, found, even, first, found ▸ cuts⟩

end Script
end Pagelet
