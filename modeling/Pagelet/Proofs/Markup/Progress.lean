import Mathlib
import Pagelet.Proofs.Markup.InPlace

/-!
# Progress through a text

Each token is paid for by a character of its own: the `<` of a tag, the `<` of an end tag,
or the first character of a run of text.  So a text has at most as many tokens as bytes, and
reading it in place, call after call, reaches its end.
-/

namespace Pagelet
namespace Markup

namespace Token

variable {cs behind : List Char} {tokens : List Token}

theorem length_rawText_le (cs : List Char) : (rawText cs).length ≤ cs.length := by
  cases cs with
  | nil => exact Nat.le_refl 0
  | cons c rest => exact Nat.le_add_left 1 rest.length

/-- A raw body pays for its text, and its end tag for itself. -/
theorem length_readRaw_add_le (name : String) (cs : List Char) :
    (readRaw name cs).1.length + (readRaw name cs).2.length ≤ cs.length := by
  unfold readRaw
  split
  · next body behind split =>
    obtain ⟨closing, rfl, ⟨spelling, blanks, rfl, -⟩, -⟩ := eq_append_of_splitRaw? split
    have text := length_rawText_le body
    simp only [List.length_append, List.length_cons, List.length_nil]
    omega
  · exact length_rawText_le cs

/-- An element gives at most one token more than it takes characters behind its opening. -/
theorem length_add_le_of_readElement? (read : readElement? cs = some (tokens, behind)) :
    tokens.length + behind.length ≤ cs.length + 1 := by
  obtain ⟨⟨name, tag⟩, opened, read⟩ := Option.bind_eq_some_iff.1 read
  have rest := (suffix_of_readStartTag? opened).length_le
  dsimp only at read
  split at read
  · obtain ⟨rfl, rfl⟩ := Prod.mk.inj (Option.some.inj read)
    have raw := length_readRaw_add_le name tag.behind
    rw [List.length_cons]
    omega
  · obtain ⟨rfl, rfl⟩ := Prod.mk.inj (Option.some.inj read)
    rw [List.length_singleton]
    omega

/-- A text gives no more tokens than it takes characters. -/
theorem length_readText_add_le (c : Char) (rest : List Char) :
    (readText c rest).1.length + (readText c rest).2.length ≤ (c :: rest).length := by
  have behind := (List.dropWhile_suffix (l := rest) (· != '<')).length_le
  simp only [readText, List.length_nil, List.length_cons]
  omega

/-- A step pays for its tokens with the characters that it reads. -/
theorem length_next_add_le (c : Char) (rest : List Char) :
    (next c rest).1.length + (next c rest).2.length ≤ (c :: rest).length := by
  fun_cases next c rest with
  | case1 sign more =>
      have behind := (behindComment_suffix more).length_le
      simp only [List.length_nil, List.length_cons]
      omega
  | case2 sign more =>
      have behind := (behindTag_suffix more).length_le
      simp only [List.length_nil, List.length_cons]
      omega
  | case3 sign more =>
      have behind := (behindTag_suffix more).length_le
      simp only [List.length_nil, List.length_cons]
      omega
  | case4 sign more name behind closed =>
      have rest := (suffix_of_readEndTag? closed).length_le
      simp only [List.length_nil, List.length_cons]
      omega
  | case5 sign more => exact length_readText_add_le c ('/' :: more)
  | case6 =>
      cases opened : readElement? rest with
      | none => exact length_readText_add_le c rest
      | some parts => exact length_add_le_of_readElement? opened
  | case7 => exact length_readText_add_le c rest

/-- A text gives no more tokens than it has characters. -/
theorem length_scan_le (cs : List Char) : (scan cs).length ≤ cs.length := by
  fun_induction scan cs with
  | case1 => exact Nat.le_refl 0
  | case2 c rest step ih =>
      have paid : step.1.length + step.2.length ≤ (c :: rest).length := length_next_add_le c rest
      rw [List.length_append]
      omega

end Token

namespace Cursor

open Text (isBoundary)

theorem length_bytes (source : String) : (bytes source).length = source.utf8ByteSize := by
  rw [bytes, length_bytesOf, ← String.utf8ByteSize_ofList, String.ofList_toList]

/-- Reading never slips and always moves.  From any offset at which the text may be cut, the
call for a token slices at such offsets only and stops at one: behind the offset if it gives a
token, and at the end of the text if it gives none.  All calls together give the tokens of the
text, and these are at most as many as the text has bytes. -/
theorem next_advances (source : String) :
    (∀ offset, isBoundary source offset = true →
      ∃ found stop, next source offset = .ok (found, stop) ∧
        isBoundary source stop = true ∧ stop ≤ source.utf8ByteSize ∧
          (found = [] ∧ stop = source.utf8ByteSize ∨ found ≠ [] ∧ offset < stop)) ∧
    tokens source 0 = .ok (Token.ofMarkup source) ∧
      (Token.ofMarkup source).length ≤ source.utf8ByteSize := by
  refine ⟨fun offset boundary => ?_, ?_, ?_⟩
  · obtain ⟨rest, suffix, rfl⟩ := isBoundary_iff.1 boundary
    obtain ⟨found, behind, read, ends, -⟩ := next_placeOf suffix
    have within : placeOf source behind ≤ (bytes source).length := offsetOf_le behind
    have start : placeOf source rest ≤ (bytes source).length := offsetOf_le rest
    refine ⟨found, _, read, isBoundary_placeOf ends, length_bytes source ▸ within, ?_⟩
    cases found with
    | nil => exact .inl ⟨rfl, (eq_length_of_next_nil start read).trans (length_bytes source)⟩
    | cons token more => exact .inr ⟨List.cons_ne_nil _ _, (next_range read).1⟩
  · refine tokens_placeOf (List.suffix_refl _) ?_
    exact (Nat.sub_self _).symm
  · calc
      (Token.ofMarkup source).length ≤ source.toList.length := Token.length_scan_le _
      _ ≤ source.utf8ByteSize := by
        have size := Token.length_le_utf8ByteSize_ofList source.toList
        rwa [String.ofList_toList] at size

end Cursor
end Markup
end Pagelet
