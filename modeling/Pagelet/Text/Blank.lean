/-!
# Blank characters, trimming and words

Two widths of white space occur in pages: the Unicode property `White_Space`,
used wherever text is trimmed or cut into words, and the five ASCII blanks that
may stand inside a tag.
-/

namespace Pagelet
namespace Text

/-- A character with the Unicode property `White_Space`. -/
def isBlank (c : Char) : Bool :=
  let code := c.toNat
  (0x9 ≤ code && code ≤ 0xD) || code == 0x20 || code == 0x85 || code == 0xA0 ||
    code == 0x1680 || (0x2000 ≤ code && code ≤ 0x200A) || code == 0x2028 ||
    code == 0x2029 || code == 0x202F || code == 0x205F || code == 0x3000

/-- A space, tab, line feed, form feed or carriage return. -/
def isAsciiBlank (c : Char) : Bool :=
  c == ' ' || c == '\t' || c == '\n' || c == '\x0c' || c == '\r'

/-- The text without its leading blanks. -/
def trimStart (cs : List Char) : List Char :=
  cs.dropWhile isBlank

/-- The text without its trailing blanks. -/
def trimEnd (cs : List Char) : List Char :=
  (cs.reverse.dropWhile isBlank).reverse

/-- The text without leading and trailing blanks. -/
def trim (cs : List Char) : List Char :=
  trimEnd (trimStart cs)

/-- A trimmed text does not begin with a blank. -/
theorem trimStart_eq_cons {cs rest : List Char} {c : Char}
    (h : trimStart cs = c :: rest) : isBlank c = false := by
  induction cs with
  | nil => simp [trimStart] at h
  | cons head tail ih =>
      cases blank : isBlank head with
      | true => exact ih (by simpa [trimStart, blank] using h)
      | false =>
          simp only [trimStart, List.dropWhile_cons, blank] at h
          injection h with head_eq
          exact head_eq ▸ blank

/-- Whether the text begins with a blank. -/
def startsBlank : List Char → Bool
  | [] => false
  | c :: _ => isBlank c

/-- Whether the text ends with a blank. -/
def endsBlank (cs : List Char) : Bool :=
  startsBlank cs.reverse

/-- The maximal blank-free runs of a text, in order. -/
def words (cs : List Char) : List (List Char) :=
  (cs.splitOnP isBlank).filter (!·.isEmpty)

/-- The words of a text, one space between neighbours. -/
def collapse (cs : List Char) : List Char :=
  [' '].intercalate (words cs)

end Text
end Pagelet
