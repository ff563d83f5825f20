import Pagelet.Proofs.Statement.Nesting
import Pagelet.Proofs.Text.Trimming

/-!
# Comments of a script

A text without its comments has no comment left in it, so it does not matter how
often comments are dropped.  They can be dropped from parts of a text one by one:
in front of a character that continues no comment sign, and at the end of a line.
-/

namespace Pagelet
namespace Script

open Text (Quotation Region IsBlankText trim)

variable {state : Quotation} {c : Char} {cs front back : List Char}

/-- No comment begins in the text. -/
def Uncommented : Quotation → List Char → Prop
  | _, [] => True
  | state, c :: rest =>
      ¬(state = .outside ∧ c = '/' ∧ rest.head? = some '/') ∧
        Uncommented (state.next marks c) rest

/-- A text without comments is kept, and what stands behind it loses its own. -/
theorem dropComments_append (uncommented : Uncommented state front)
    (apart : back.head? ≠ some '/') :
    dropComments (.code state) (front ++ back) =
      front ++ dropComments (.code (state.after marks front)) back := by
  induction front generalizing state with
  | nil => rfl
  | cons c front ih =>
      obtain ⟨noComment, others⟩ := uncommented
      have stillNone :
          ¬(state = .outside ∧ c = '/' ∧ (front ++ back).head? = some '/') := by
        cases front with
        | nil =>
            intro begins
            exact apart begins.2.2
        | cons d front => exact noComment
      rw [List.cons_append, dropComments, if_neg stillNone, ih others]
      rfl

namespace Uncommented

/-- A text without comments loses nothing. -/
theorem dropComments_eq (uncommented : Uncommented state cs) :
    dropComments (.code state) cs = cs := by
  have apart : ([] : List Char).head? ≠ some '/' := by simp
  have dropped := dropComments_append uncommented apart
  rw [List.append_nil] at dropped
  rw [dropped, dropComments, List.append_nil]

/-- Two texts make no comment where they meet, unless slashes meet. -/
theorem append (first : Uncommented state front)
    (second : Uncommented (state.after marks front) back)
    (apart : front.getLast? = some '/' → back.head? ≠ some '/') :
    Uncommented state (front ++ back) := by
  induction front generalizing state with
  | nil => exact second
  | cons c front ih =>
      obtain ⟨noComment, others⟩ := first
      cases front with
      | nil => exact ⟨fun begins => apart (congrArg some begins.2.1) begins.2.2, second⟩
      | cons d front => exact ⟨noComment, ih others second apart⟩

theorem of_append (whole : Uncommented state (front ++ back)) :
    Uncommented state front ∧ Uncommented (state.after marks front) back := by
  induction front generalizing state with
  | nil => exact ⟨trivial, whole⟩
  | cons c front ih =>
      obtain ⟨noComment, others⟩ := whole
      obtain ⟨first, second⟩ := ih others
      refine ⟨⟨?_, first⟩, second⟩
      cases front with
      | nil => exact fun begins => by cases begins.2.2
      | cons d front => exact noComment

theorem of_allUnquoted (noSlash : AllUnquoted (· ≠ '/') state cs) : Uncommented state cs := by
  induction cs generalizing state with
  | nil => trivial
  | cons c cs ih =>
      refine ⟨?_, ih noSlash.2⟩
      rintro ⟨rfl, rfl, -⟩
      exact noSlash.1 rfl rfl

/-- Blanks at the ends can be taken off. -/
theorem trim (uncommented : Uncommented .outside cs) : Uncommented .outside (trim cs) := by
  obtain ⟨lead, tail, leadBlank, tailBlank, whole⟩ := Text.exists_eq_append_trim cs
  rw [whole] at uncommented
  have inner := uncommented.of_append.1.of_append.2
  rwa [(Balanced.of_isBlankText leadBlank).after_quotation] at inner

end Uncommented

theorem head?_dropComments (begins : (dropComments (.code state) cs).head? = some '/') :
    cs.head? = some '/' := by
  cases cs with
  | nil => cases begins
  | cons c cs =>
      rw [dropComments] at begins
      split at begins
      · next comment => rw [comment.2.1]; rfl
      · exact begins

/-- The state in which a region begins that is read as code. -/
def codeState : Region → Quotation
  | .code state => state
  | .comment => .outside

/-- Comments that are dropped leave no comment. -/
theorem uncommented_dropComments (region : Region) (cs : List Char) :
    Uncommented (codeState region) (dropComments region cs) := by
  fun_induction dropComments region cs with
  | case1 => trivial
  | case2 rest ih => exact ⟨fun begins => absurd begins.2.1 (by decide), ih⟩
  | case3 c rest notLineEnd ih => exact ih
  | case4 state c rest comment ih => rw [comment.1] at *; exact ih
  | case5 state c rest noComment ih =>
      refine ⟨?_, ih⟩
      intro begins
      apply noComment
      exact ⟨begins.1, begins.2.1, head?_dropComments begins.2.2⟩

/-- A line end cuts a text into two from which comments are dropped alike. -/
theorem dropComments_lineEnd (region : Region) (front back : List Char)
    (ends : (codeState region).after marks (dropComments region front) = .outside) :
    dropComments region (front ++ '\n' :: back) =
      dropComments region front ++ '\n' :: dropComments (.code .outside) back := by
  fun_induction dropComments region front with
  | case1 region =>
      cases region with
      | comment => rfl
      | code state => cases ends; rfl
  | case2 rest ih =>
      rw [List.cons_append, dropComments, if_pos rfl, ih ends]
      rfl
  | case3 c rest notLineEnd ih =>
      rw [List.cons_append, dropComments, if_neg notLineEnd, ih ends]
  | case4 state c rest comment ih =>
      obtain ⟨rfl, rfl, slash⟩ := comment
      have begins : (rest ++ '\n' :: back).head? = some '/' := by
        rw [List.head?_append, slash]
        rfl
      rw [List.cons_append, dropComments, if_pos ⟨rfl, rfl, begins⟩, ih ends]
  | case5 state c rest noComment ih =>
      have stillNone :
          ¬(state = .outside ∧ c = '/' ∧ (rest ++ '\n' :: back).head? = some '/') := by
        cases rest with
        | nil => exact fun begins => by cases begins.2.2
        | cons d rest => exact noComment
      rw [List.cons_append, dropComments, if_neg stillNone, ih ends]
      rfl

/-- The second text is the first without its comments.  A comment begins with two slashes outside
strings and ends with its line; the line end stays. -/
inductive Stripped : Quotation → List Char → List Char → Prop
  | nil (state : Quotation) : Stripped state [] []
  | kept {state : Quotation} {c : Char} {source text : List Char}
      (noComment : ¬(state = .outside ∧ c = '/' ∧ source.head? = some '/'))
      (others : Stripped (state.next marks c) source text) :
      Stripped state (c :: source) (c :: text)
  | comment {line source text : List Char} (oneLine : '\n' ∉ line)
      (ends : source = [] ∨ source.head? = some '\n') (others : Stripped .outside source text) :
      Stripped .outside ('/' :: '/' :: (line ++ source)) text

/-- Within a comment, reading goes on at the end of the line. -/
theorem dropComments_comment (cs : List Char) :
    dropComments .comment cs = dropComments (.code .outside) (cs.dropWhile (· ≠ '\n')) := by
  induction cs with
  | nil => rfl
  | cons c cs ih =>
      by_cases lineEnd : c = '\n'
      · subst lineEnd
        rfl
      · rw [dropComments, if_neg lineEnd, ih, List.dropWhile_cons_of_pos (by simpa using lineEnd)]

/-- The characters of a line stand in front of its end. -/
theorem dropWhile_line {line source : List Char} (oneLine : '\n' ∉ line)
    (ends : source = [] ∨ source.head? = some '\n') :
    (line ++ source).dropWhile (· ≠ '\n') = source := by
  have all : ∀ c ∈ line, (c ≠ '\n' : Bool) = true := by
    intro c member
    exact decide_eq_true fun lineEnd => oneLine (lineEnd ▸ member)
  rw [List.dropWhile_append_of_pos all]
  cases source with
  | nil => rfl
  | cons d source =>
      obtain rfl : d = '\n' := by simpa using ends
      rfl

theorem dropWhile_ends (cs : List Char) :
    cs.dropWhile (· ≠ '\n') = [] ∨ (cs.dropWhile (· ≠ '\n')).head? = some '\n' := by
  have first := List.head?_dropWhile_not (· ≠ '\n') cs
  cases back : cs.dropWhile (· ≠ '\n') with
  | nil => exact .inl rfl
  | cons d back =>
      rw [back] at first
      exact .inr (by simpa using first)

/-- The text without its comments is the only one that a source strips to. -/
theorem Stripped.eq_dropComments {source text : List Char} (stripped : Stripped state source text) :
    text = dropComments (.code state) source := by
  induction stripped with
  | nil => rfl
  | kept noComment others ih => rw [dropComments, if_neg noComment, ih]
  | comment oneLine ends others ih =>
      rw [dropComments, if_pos ⟨rfl, rfl, rfl⟩, dropComments_comment,
        List.dropWhile_cons_of_pos (by decide), dropWhile_line oneLine ends, ih]

/-- Dropping comments strips a text of its comments, and strips it of nothing else. -/
theorem stripped_iff {source text : List Char} :
    Stripped state source text ↔ text = dropComments (.code state) source := by
  refine ⟨Stripped.eq_dropComments, ?_⟩
  rintro rfl
  induction size : source.length using Nat.strongRecOn generalizing state source with
  | ind size ih =>
      subst size
      cases source with
      | nil => exact .nil state
      | cons c rest =>
          by_cases begins : state = .outside ∧ c = '/' ∧ rest.head? = some '/'
          · rw [dropComments, if_pos begins]
            obtain ⟨rfl, rfl, slash⟩ := begins
            obtain ⟨rest, rfl⟩ : ∃ line, rest = '/' :: line := List.head?_eq_some_iff.1 slash
            have shorter : (rest.dropWhile (· ≠ '\n')).length < rest.length + 2 :=
              Nat.lt_add_right 1 (Nat.lt_succ_of_le (List.dropWhile_suffix _).length_le)
            have oneLine : '\n' ∉ rest.takeWhile (· ≠ '\n') :=
              fun member => by simpa using List.mem_takeWhile_imp member
            rw [dropComments_comment, List.dropWhile_cons_of_pos (by decide)]
            have stripped := Stripped.comment oneLine (dropWhile_ends rest) (ih _ shorter rfl)
            rwa [List.takeWhile_append_dropWhile] at stripped
          · rw [dropComments, if_neg begins]
            exact .kept begins (ih _ (Nat.lt_succ_self _) rfl)

end Script
end Pagelet
