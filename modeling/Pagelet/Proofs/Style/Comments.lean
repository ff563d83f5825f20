import Mathlib.Data.List.Infix
import Pagelet.Proofs.Style.AtRules

/-!
# Comments between two texts

A scanner that has left all quotes and comments reads what follows as it would read it from the
start.  So a comment there is dropped whatever it holds, and the texts before and behind it are
read as one.
-/

namespace Pagelet
namespace Style

open Text (Quotation Region)

/-- The region in which a scanner stands behind a text. -/
def regionAfter : Region → List Char → Region
  | region, [] => region
  | .comment, '*' :: '/' :: rest => regionAfter (.code .outside) rest
  | .comment, _ :: rest => regionAfter .comment rest
  | .code .outside, '/' :: '*' :: rest => regionAfter .comment rest
  | .code state, c :: rest => regionAfter (.code (state.next marks c)) rest

/-- A sheet's text leaves no string and no comment open. -/
def EndsOutside (cs : List Char) : Prop :=
  regionAfter (.code .outside) cs = .code .outside

instance : DecidablePred EndsOutside := fun cs =>
  inferInstanceAs (Decidable (regionAfter (.code .outside) cs = .code .outside))

theorem dropComments_comment_cons {c : Char} {rest : List Char}
    (goesOn : c = '*' → rest.head? ≠ some '/') :
    dropComments .comment (c :: rest) = dropComments .comment rest := by
  rw [dropComments]
  rintro more rfl rfl
  exact goesOn rfl rfl

/-- Where a text has left all quotes and comments, what follows it is read by itself, unless a
slash and a star meet. -/
theorem dropComments_append {region : Region} {front : List Char}
    (outside : regionAfter region front = .code .outside) {back : List Char}
    (apart : front.getLast? = some '/' → back.head? ≠ some '*') :
    dropComments region (front ++ back) =
      dropComments region front ++ dropComments (.code .outside) back := by
  fun_induction regionAfter region front with
  | case1 region =>
      subst outside
      rfl
  | case2 rest ih =>
      refine ih outside fun ends => apart ?_
      rw [List.getLast?_cons_cons, List.getLast?_cons, ends]
      rfl
  | case3 c rest goesOn ih =>
      cases rest with
      | nil => cases outside
      | cons d rest =>
          have open' (more : List Char) : c = '*' → (d :: more).head? ≠ some '/' := by
            rintro rfl slash
            exact goesOn rest rfl (by rw [Option.some.inj slash])
          rw [List.cons_append, List.cons_append, dropComments_comment_cons (open' _),
            dropComments_comment_cons (open' _)]
          exact ih outside apart
  | case4 rest ih =>
      refine ih outside fun ends => apart ?_
      rw [List.getLast?_cons_cons, List.getLast?_cons, ends]
      rfl
  | case5 state c rest noComment ih =>
      cases rest with
      | nil =>
          have alone : ¬(state = .outside ∧ c = '/' ∧ ([] : List Char).head? = some '*') :=
            fun begins => by cases begins.2.2
          have still : ¬(state = .outside ∧ c = '/' ∧ back.head? = some '*') := by
            rintro ⟨-, rfl, star⟩
            exact apart rfl star
          have closed : state.next marks c = .outside := Region.code.inj outside
          rw [List.singleton_append, dropComments_cons still, dropComments_cons alone, closed]
          rfl
      | cons d rest =>
          have still (more : List Char) :
              ¬(state = .outside ∧ c = '/' ∧ (d :: more).head? = some '*') := by
            rintro ⟨rfl, rfl, star⟩
            exact noComment rest rfl rfl (by rw [Option.some.inj star])
          rw [List.cons_append, List.cons_append, dropComments_cons (still _),
            dropComments_cons (still _), List.cons_append]
          exact congrArg (c :: ·) (ih outside apart)

/-- A comment ends at the first star before a slash. -/
theorem dropComments_closed {note : List Char} (unended : ¬ ['*', '/'] <:+: note)
    (back : List Char) :
    dropComments .comment (note ++ '*' :: '/' :: back) = dropComments (.code .outside) back := by
  induction note with
  | nil => rfl
  | cons c rest ih =>
      have goesOn : c = '*' → (rest ++ '*' :: '/' :: back).head? ≠ some '/' := by
        rintro rfl slash
        cases rest with
        | nil => cases slash
        | cons d rest =>
            obtain rfl : d = '/' := Option.some.inj slash
            exact unended ⟨[], rest, rfl⟩
      rw [List.cons_append, dropComments_comment_cons goesOn]
      exact ih fun ends => unended (ends.trans (List.infix_cons List.infix_rfl))

/-- A comment between two texts is dropped, whatever it holds. -/
theorem dropComments_between {front note back : List Char} (outside : EndsOutside front)
    (noSlash : front.getLast? ≠ some '/') (unended : ¬ ['*', '/'] <:+: note) :
    dropComments (.code .outside) (front ++ '/' :: '*' :: (note ++ '*' :: '/' :: back)) =
      dropComments (.code .outside) (front ++ back) := by
  calc
    _ = dropComments (.code .outside) front ++
        dropComments .comment (note ++ '*' :: '/' :: back) :=
      dropComments_append outside fun ends => absurd ends noSlash
    _ = dropComments (.code .outside) front ++ dropComments (.code .outside) back := by
      rw [dropComments_closed unended]
    _ = _ := (dropComments_append outside fun ends => absurd ends noSlash).symm

namespace RuleTable

/-- A comment makes no difference to what a sheet adds to a table, wherever text is read outside
quotes and comments, and whatever the comment holds. -/
theorem addSheet_comment {front note : String} (outside : EndsOutside front.toList)
    (noSlash : front.toList.getLast? ≠ some '/') (unended : ¬ ['*', '/'] <:+: note.toList)
    (back : String) (table : RuleTable) :
    table.addSheet (front ++ "/*" ++ note ++ "*/" ++ back) = table.addSheet (front ++ back) := by
  refine addSheet_congr ?_ table
  have whole : (front ++ "/*" ++ note ++ "*/" ++ back).toList =
      front.toList ++ '/' :: '*' :: (note.toList ++ '*' :: '/' :: back.toList) := by
    simp
  rw [sheetEntries, sheetEntries, whole, String.toList_append,
    dropComments_between outside noSlash unended]

/-- A comment inside a value, with a quote, a brace and an accent in it. -/
theorem addSheet_comment_insideValue :
    (EndsOutside "p \x7b content: '/*'; color: dark".toList ∧
        "p \x7b content: '/*'; color: dark".toList.getLast? ≠ some '/' ∧
        ¬ ['*', '/'] <:+: "/ it's \x7d é *".toList) ∧
      ∀ table : RuleTable,
        table.addSheet ("p \x7b content: '/*'; color: dark" ++ "/*" ++ "/ it's \x7d é *" ++ "*/" ++
            "red \x7d") =
          table.addSheet ("p \x7b content: '/*'; color: dark" ++ "red \x7d") := by
  have outside : EndsOutside "p \x7b content: '/*'; color: dark".toList := by
    decide +kernel
  have noSlash : "p \x7b content: '/*'; color: dark".toList.getLast? ≠ some '/' := by
    decide
  have unended : ¬ ['*', '/'] <:+: "/ it's \x7d é *".toList := by decide
  exact ⟨⟨outside, noSlash, unended⟩, fun table => addSheet_comment outside noSlash unended _ table⟩

end RuleTable

end Style
end Pagelet
