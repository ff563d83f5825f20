import Pagelet.Text.Blank

/-!
# Bytes of markup

Markup is also read in place, by offsets into its bytes.  Every sign of markup is ASCII,
so a byte is looked at as the character of its code: what such a search stops at is a sign
of markup and never a part of another character.
-/

namespace Pagelet
namespace Markup
namespace Cursor

open Text (isAsciiBlank)

/-- The bytes of a text. -/
def bytesOf (cs : List Char) : List UInt8 :=
  cs.flatMap String.utf8EncodeChar

/-- The offset behind the longest run from an offset on whose bytes have the property. -/
def skipWhile (p : Char → Bool) (bytes : List UInt8) (offset : Nat) : Nat :=
  offset + ((bytes.drop offset).takeWhile fun byte => p (Char.ofUInt8 byte)).length

/-- The offset of the first byte, from an offset on, that is the character. -/
def find? (c : Char) (bytes : List UInt8) (offset : Nat) : Option Nat :=
  let place := skipWhile (· != c) bytes offset
  if place < bytes.length then some place else none

/-- Whether the byte at the offset is the character. -/
def looksAt (c : Char) (bytes : List UInt8) (offset : Nat) : Bool :=
  bytes[offset]?.map Char.ofUInt8 == some c

/-- Whether the bytes of the word stand at the offset. -/
def startsWith (word : List Char) (bytes : List UInt8) (offset : Nat) : Bool :=
  (bytesOf word).isPrefixOf (bytes.drop offset)

/-- The offset behind the next `>`, or the end. -/
def behindTag (bytes : List UInt8) (offset : Nat) : Nat :=
  match find? '>' bytes offset with
  | some sign => sign + 1
  | none => bytes.length

variable {p : Char → Bool} {c : Char} {bytes : List UInt8} {offset place : Nat}

theorem le_skipWhile (p : Char → Bool) (bytes : List UInt8) (offset : Nat) :
    offset ≤ skipWhile p bytes offset :=
  Nat.le_add_right _ _

theorem skipWhile_le (p : Char → Bool) (bytes : List UInt8) (offset : Nat) :
    skipWhile p bytes offset ≤ max offset bytes.length := by
  have run := (List.takeWhile_prefix (l := bytes.drop offset)
    fun byte => p (Char.ofUInt8 byte)).length_le
  rw [List.length_drop] at run
  unfold skipWhile
  omega

/-- A mark that is found stands at or behind the offset, inside the bytes. -/
theorem range_of_find? (found : find? c bytes offset = some place) :
    offset ≤ place ∧ place < bytes.length := by
  obtain ⟨within, same⟩ := Option.ite_none_right_eq_some.1 found
  obtain rfl := Option.some.inj same
  exact ⟨le_skipWhile _ bytes offset, within⟩

theorem lt_of_looksAt (here : looksAt c bytes offset = true) : offset < bytes.length := by
  refine Nat.lt_of_not_le fun beyond => ?_
  rw [looksAt, List.getElem?_eq_none beyond] at here
  cases here

/-- A search for the end of a tag never goes back. -/
theorem le_behindTag (within : offset ≤ bytes.length) : offset ≤ behindTag bytes offset := by
  unfold behindTag
  split
  · next found => exact Nat.le_succ_of_le (range_of_find? found).1
  · exact within

/-- A search for the end of a tag never leaves the bytes. -/
theorem behindTag_le : behindTag bytes offset ≤ bytes.length := by
  unfold behindTag
  split
  · next found => exact (range_of_find? found).2
  · exact Nat.le_refl _

/-- The characters of the bytes' codes, with the case of ASCII letters forgotten. -/
def foldCase (bytes : List UInt8) : List Char :=
  bytes.map fun byte => (Char.ofUInt8 byte).toLower

/-- The first end tag of the name from an offset on: where it begins, and where the text
behind it does.  A search that is left with too few bytes for the name ends at once. -/
def endTag? (bytes name : List UInt8) (offset : Nat) : Option (Nat × Nat) :=
  match _found : find? '<' bytes offset with
  | none => none
  | some sign =>
      let first := sign + 2
      let stop := first + name.length
      if !looksAt '/' bytes (sign + 1) then endTag? bytes name (sign + 1)
      else if bytes.length < stop then none
      else if foldCase ((bytes.drop first).take name.length) ≠ foldCase name then
        endTag? bytes name (sign + 1)
      else
        let close := skipWhile isAsciiBlank bytes stop
        if looksAt '>' bytes close then some (sign, close + 1)
        else endTag? bytes name (sign + 1)
termination_by bytes.length - offset
decreasing_by
  all_goals
    have range := range_of_find? _found
    omega

/-- An end tag ends within the text, and behind its beginning. -/
theorem range_of_endTag? {name : List UInt8} {stop : Nat}
    (found : endTag? bytes name offset = some (place, stop)) :
    offset ≤ place ∧ place < stop ∧ stop ≤ bytes.length := by
  fun_induction endTag? bytes name offset with
  | case1 => cases found
  | case2 offset sign here _ ih =>
      have range := range_of_find? here
      have later := ih found
      omega
  | case3 => cases found
  | case4 offset sign here first last _ _ _ ih =>
      have range := range_of_find? here
      have later := ih found
      omega
  | case5 offset sign here first last _ _ _ close ends =>
      obtain ⟨rfl, rfl⟩ := Prod.mk.inj (Option.some.inj found)
      have range := range_of_find? here
      have run : last ≤ close := le_skipWhile isAsciiBlank bytes last
      have within := lt_of_looksAt ends
      omega
  | case6 offset sign here first last _ _ _ close _ ih =>
      have range := range_of_find? here
      have later := ih found
      omega

end Cursor
end Markup
end Pagelet
