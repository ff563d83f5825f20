import Pagelet.Text.Numeral

/-!
# Character references

A reference is an ampersand, a short body and a semicolon.  The body is one of
six names or a code point in decimal or hexadecimal digits.  Whatever is no
reference stays as written, and decoded text is never decoded again.
-/

namespace Pagelet
namespace Markup
namespace Reference

/-- The names that stand for a character. -/
def named : List (String × Char) :=
  [("nbsp", '\u00a0'), ("amp", '&'), ("lt", '<'), ("gt", '>'), ("quot", '"'), ("apos", '\'')]

/-- How many characters behind the ampersand are searched for the semicolon. -/
def reach : Nat := 11

/-- The character with this code point, unless the code is out of range or a
surrogate. -/
def scalar? (code : Nat) : Option Char :=
  if code.isValidChar then some (Char.ofNat code) else none

/-- The character that the body of a reference stands for. -/
def char? (body : List Char) : Option Char :=
  match named.lookup (String.ofList body) with
  | some c => some c
  | none =>
      match body with
      | '#' :: 'x' :: digits => (Text.word32? 16 digits).bind scalar?
      | '#' :: 'X' :: digits => (Text.word32? 16 digits).bind scalar?
      | '#' :: digits => (Text.word32? 10 digits).bind scalar?
      | _ => none

/-- The text before and behind a semicolon among the next `limit` characters. -/
def cutSemicolon? : Nat → List Char → Option (List Char × List Char)
  | 0, _ => none
  | _, [] => none
  | limit + 1, c :: rest =>
      if c = ';' then some ([], rest)
      else (cutSemicolon? limit rest).map fun (body, behind) => (c :: body, behind)

/-- The text is its front, the semicolon and what comes behind. -/
theorem eq_of_cutSemicolon? {limit : Nat} {cs body behind : List Char}
    (h : cutSemicolon? limit cs = some (body, behind)) :
    cs = body ++ ';' :: behind := by
  fun_induction cutSemicolon? limit cs generalizing body with
  | case1 => simp at h
  | case2 => simp at h
  | case3 => simp_all
  | case4 limit c rest _ ih =>
      obtain ⟨⟨front, back⟩, found, parts⟩ := Option.map_eq_some_iff.1 h
      simp only [Prod.mk.injEq] at parts
      obtain ⟨rfl, rfl⟩ := parts
      simp [ih found]

/-- Reads a reference whose ampersand has been read: its character, and the text
behind its semicolon. -/
def read? (cs : List Char) : Option (Char × List Char) := do
  let (body, behind) ← cutSemicolon? reach cs
  let c ← char? body
  some (c, behind)

/-- A reference consumes at least its semicolon. -/
theorem length_lt_of_read? {cs behind : List Char} {c : Char}
    (h : read? cs = some (c, behind)) : behind.length < cs.length := by
  unfold read? at h
  cases cut : cutSemicolon? reach cs with
  | none => simp [cut] at h
  | some parts =>
      obtain ⟨body, rest⟩ := parts
      have whole := eq_of_cutSemicolon? cut
      cases found : char? body with
      | none => simp [cut, found] at h
      | some d =>
          simp only [cut, found, Option.bind_eq_bind, Option.bind_some, Option.some.injEq,
            Prod.mk.injEq] at h
          rw [whole, ← h.2]
          simp
          omega

/-- The text with its references replaced, in one pass. -/
def decode : List Char → List Char
  | [] => []
  | c :: rest =>
      if c = '&' then
        match _read : read? rest with
        | some (decoded, behind) => decoded :: decode behind
        | none => c :: decode rest
      else c :: decode rest
termination_by cs => cs.length
decreasing_by
  · have := length_lt_of_read? _read
    simp only [List.length_cons]
    omega
  · simp
  · simp

end Reference

/-- The string with its character references replaced. -/
def decodeReferences (text : String) : String :=
  String.ofList (Reference.decode text.toList)

end Markup
end Pagelet
