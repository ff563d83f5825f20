import Mathlib
import Pagelet.Markup.Cursor
import Pagelet.Proofs.Markup.Reading
import Pagelet.Proofs.Text.Offsets

/-!
# Bytes and characters

The bytes of a text hold an ASCII code only where the text holds that character.  So a
search through bytes for a sign of markup, or past the characters of an ASCII class, ends
where the search through characters does.
-/

namespace Pagelet
namespace Markup
namespace Cursor

variable {c : Char} {cs front rest : List Char} {p : Char → Bool}

theorem utf8EncodeChar_of_ascii (ascii : c.toNat < 128) :
    String.utf8EncodeChar c = [c.toUInt8] := by
  have small : c.val.toNat ≤ 127 := Nat.le_of_lt_succ ascii
  simp only [String.utf8EncodeChar, small, if_true]
  rfl

/-- The bytes of a character beyond ASCII are all beyond ASCII. -/
theorem le_of_mem_utf8EncodeChar (beyond : 128 ≤ c.toNat) :
    ∀ byte ∈ String.utf8EncodeChar c, 128 ≤ byte.toNat := by
  intro byte member
  have large : ¬ c.val.toNat ≤ 127 := Nat.not_le_of_lt beyond
  simp only [String.utf8EncodeChar, large, if_false] at member
  split at member
  · simp only [List.mem_cons, List.not_mem_nil, or_false] at member
    rcases member with rfl | rfl <;> simp <;> omega
  · split at member
    · simp only [List.mem_cons, List.not_mem_nil, or_false] at member
      rcases member with rfl | rfl | rfl <;> simp <;> omega
    · simp only [List.mem_cons, List.not_mem_nil, or_false] at member
      rcases member with rfl | rfl | rfl | rfl <;> simp <;> omega

theorem toNat_ofUInt8 (byte : UInt8) : (Char.ofUInt8 byte).toNat = byte.toNat := by
  simp [Char.ofUInt8, Char.toNat]

theorem ofUInt8_toUInt8 (ascii : c.toNat < 128) : Char.ofUInt8 c.toUInt8 = c := by
  apply Char.toNat_inj.1
  rw [toNat_ofUInt8]
  exact Nat.mod_eq_of_lt (Nat.lt_trans ascii (by decide))

/-- The class does not tell the characters beyond ASCII apart. -/
def Blind (p : Char → Bool) : Prop :=
  ∀ c d : Char, 128 ≤ c.toNat → 128 ≤ d.toNat → p c = p d

/-- To such a class every byte of a character counts as the character. -/
theorem Blind.apply_of_mem (blind : Blind p) :
    ∀ byte ∈ String.utf8EncodeChar c, p (Char.ofUInt8 byte) = p c := by
  intro byte member
  by_cases ascii : c.toNat < 128
  · rw [utf8EncodeChar_of_ascii ascii, List.mem_singleton] at member
    rw [member, ofUInt8_toUInt8 ascii]
  · have beyond := Nat.le_of_not_lt ascii
    refine blind _ _ ?_ beyond
    rw [toNat_ofUInt8]
    exact le_of_mem_utf8EncodeChar beyond byte member

/-- A class that holds of no character beyond the first 128 sees nothing inside a longer
character. -/
theorem Blind.of_false (ascii : ∀ c : Char, 128 ≤ c.toNat → p c = false) : Blind p :=
  fun c d first second => (ascii c first).trans (ascii d second).symm

theorem Blind.ne (ascii : c.toNat < 128) : Blind (· != c) := by
  have distinct (d : Char) (beyond : 128 ≤ d.toNat) : (d != c) = true := by
    rw [bne_iff_ne]
    rintro rfl
    omega
  exact fun d e first second => (distinct d first).trans (distinct e second).symm

theorem isAsciiBlank_of_le (beyond : 128 ≤ c.toNat) : Text.isAsciiBlank c = false := by
  cases blank : Text.isAsciiBlank c with
  | false => rfl
  | true =>
      simp only [Text.isAsciiBlank, Bool.or_eq_true, beq_iff_eq] at blank
      rcases blank with (((rfl | rfl) | rfl) | rfl) | rfl <;> exact absurd beyond (by decide)

theorem isAlphanum_of_le (beyond : 128 ≤ c.toNat) : c.isAlphanum = false := by
  have value : c.toNat = c.val.toNat := rfl
  have upper : 'Z'.val.toNat = 90 := rfl
  have lower : 'z'.val.toNat = 122 := rfl
  have digit : '9'.val.toNat = 57 := rfl
  simp only [Char.isAlphanum, Char.isAlpha, Char.isUpper, Char.isLower, Char.isDigit, ge_iff_le,
    UInt32.le_iff_toNat_le, Bool.or_eq_false_iff, Bool.and_eq_false_iff, decide_eq_false_iff_not]
  omega

theorem isAlpha_of_le (beyond : 128 ≤ c.toNat) : c.isAlpha = false :=
  (Bool.or_eq_false_iff.1 (isAlphanum_of_le beyond)).1

theorem isNameChar_of_le (beyond : 128 ≤ c.toNat) : Token.isNameChar c = false := by
  have distinct (sign : Char) (ascii : sign.toNat < 128) : (c == sign) = false := by
    rw [beq_eq_false_iff_ne]
    rintro rfl
    omega
  simp only [Token.isNameChar, isAlphanum_of_le beyond, distinct '-' (by decide),
    distinct '_' (by decide), distinct ':' (by decide), Bool.or_self]

theorem blind_isAsciiBlank : Blind Text.isAsciiBlank :=
  .of_false fun _ => isAsciiBlank_of_le

theorem blind_isAlpha : Blind Char.isAlpha :=
  .of_false fun _ => isAlpha_of_le

theorem blind_isNameChar : Blind Token.isNameChar :=
  .of_false fun _ => isNameChar_of_le

@[simp]
theorem bytesOf_nil : bytesOf [] = [] :=
  rfl

@[simp]
theorem bytesOf_cons (c : Char) (cs : List Char) :
    bytesOf (c :: cs) = String.utf8EncodeChar c ++ bytesOf cs :=
  List.flatMap_cons

theorem bytesOf_append (front rest : List Char) :
    bytesOf (front ++ rest) = bytesOf front ++ bytesOf rest :=
  List.flatMap_append

theorem length_bytesOf (cs : List Char) : (bytesOf cs).length = String.utf8Len cs := by
  induction cs with
  | nil => rfl
  | cons c cs ih =>
      rw [bytesOf_cons, List.length_append, ih, String.length_utf8EncodeChar,
        String.utf8Len_cons, Nat.add_comm]

/-- A run through the bytes of a text ends where the run through its characters does. -/
theorem takeWhile_bytesOf (blind : Blind p) (cs : List Char) :
    ((bytesOf cs).takeWhile fun byte => p (Char.ofUInt8 byte)) = bytesOf (cs.takeWhile p) := by
  induction cs with
  | nil => rfl
  | cons c cs ih =>
      rw [bytesOf_cons]
      have same := blind.apply_of_mem (c := c)
      cases first : p c with
      | true =>
          rw [List.takeWhile_append_of_pos fun byte member => (same byte member).trans first, ih,
            List.takeWhile_cons_of_pos first, bytesOf_cons]
      | false =>
          obtain ⟨byte, more, spelled⟩ :=
            List.exists_cons_of_ne_nil (String.utf8EncodeChar_ne_nil (c := c))
          have stops := (same byte (spelled ▸ List.mem_cons_self)).trans first
          rw [spelled, List.cons_append, List.takeWhile_cons_of_neg (by simp [stops]),
            List.takeWhile_cons_of_neg (by simp [first]), bytesOf_nil]

/-- Bytes begin with an ASCII character exactly if the text does. -/
theorem head?_bytesOf_eq_some_iff (ascii : c.toNat < 128) :
    (bytesOf cs).head?.map Char.ofUInt8 = some c ↔ cs.head? = some c := by
  cases cs with
  | nil => simp
  | cons d cs =>
      by_cases small : d.toNat < 128
      · simp [utf8EncodeChar_of_ascii small, ofUInt8_toUInt8 small]
      · obtain ⟨byte, more, spelled⟩ :=
          List.exists_cons_of_ne_nil (String.utf8EncodeChar_ne_nil (c := d))
        have beyond := le_of_mem_utf8EncodeChar (Nat.le_of_not_lt small) byte
          (spelled ▸ List.mem_cons_self)
        rw [← toNat_ofUInt8] at beyond
        simp only [bytesOf_cons, spelled, List.cons_append, List.head?_cons, Option.map_some,
          Option.some.injEq]
        constructor
        · rintro rfl
          omega
        · rintro rfl
          omega

/-- The offset at which the rest of a text begins. -/
def offsetOf (source rest : List Char) : Nat :=
  String.utf8Len source - String.utf8Len rest

section Offsets

variable {source : List Char}

/-- The offset of an end of the text is the size of what stands in front of it. -/
theorem offsetOf_append (front rest : List Char) :
    offsetOf (front ++ rest) rest = String.utf8Len front := by
  rw [offsetOf, String.utf8Len_append, Nat.add_sub_cancel]

/-- A part of the rest reaches from its offset to the offset of what follows it. -/
theorem offsetOf_add (front : List Char) (suffix : front ++ rest <:+ source) :
    offsetOf source (front ++ rest) + String.utf8Len front = offsetOf source rest := by
  obtain ⟨before, rfl⟩ := suffix
  simp only [offsetOf, String.utf8Len_append]
  omega

/-- Behind a character the offset is larger by its size. -/
theorem offsetOf_cons (suffix : c :: rest <:+ source) :
    offsetOf source (c :: rest) + c.utf8Size = offsetOf source rest := by
  have step := offsetOf_add [c] suffix
  rwa [String.utf8Len_cons, String.utf8Len_nil, Nat.zero_add] at step

theorem offsetOf_le (rest : List Char) : offsetOf source rest ≤ (bytesOf source).length := by
  rw [length_bytesOf]
  exact Nat.sub_le _ _

@[simp]
theorem offsetOf_nil : offsetOf source [] = (bytesOf source).length := by
  rw [length_bytesOf]
  rfl

/-- At its offset an end of the text has its bytes. -/
theorem drop_offsetOf (suffix : rest <:+ source) :
    (bytesOf source).drop (offsetOf source rest) = bytesOf rest := by
  obtain ⟨before, rfl⟩ := suffix
  rw [offsetOf_append, bytesOf_append, ← length_bytesOf, List.drop_left]

/-- Only the empty end begins where the bytes stop. -/
theorem offsetOf_lt_iff (suffix : rest <:+ source) :
    offsetOf source rest < (bytesOf source).length ↔ rest ≠ [] := by
  have size := congrArg List.length (drop_offsetOf suffix)
  rw [List.length_drop, length_bytesOf rest] at size
  rw [← Nat.sub_pos_iff_lt, size, Nat.pos_iff_ne_zero, ne_eq, String.utf8Len_eq_zero]

/-- A run from where the rest begins ends where the run through its characters does. -/
theorem skipWhile_offsetOf (blind : Blind p) (suffix : rest <:+ source) :
    skipWhile p (bytesOf source) (offsetOf source rest) = offsetOf source (rest.dropWhile p) := by
  rw [skipWhile, drop_offsetOf suffix, takeWhile_bytesOf blind, length_bytesOf]
  have whole := List.takeWhile_append_dropWhile (p := p) (l := rest)
  have parts : rest.takeWhile p ++ rest.dropWhile p <:+ source := by rwa [whole]
  have step := offsetOf_add (rest.takeWhile p) parts
  rwa [whole] at step

/-- A mark is seen where an end of the text begins with it. -/
theorem looksAt_offsetOf (ascii : c.toNat < 128) (suffix : rest <:+ source) :
    looksAt c (bytesOf source) (offsetOf source rest) = (rest.head? == some c) := by
  have here : (bytesOf source)[offsetOf source rest]? = (bytesOf rest).head? := by
    rw [← drop_offsetOf suffix, List.head?_drop]
  rw [looksAt, here, Bool.eq_iff_iff, beq_iff_eq, beq_iff_eq, head?_bytesOf_eq_some_iff ascii]

theorem dropWhile_ne_eq_nil_iff : rest.dropWhile (· != c) = [] ↔ c ∉ rest := by
  rw [List.dropWhile_eq_nil_iff]
  constructor
  · intro all member
    simpa using all c member
  · exact ne_of_not_mem

/-- The first of an ASCII character in bytes is the first in the text. -/
theorem find?_offsetOf (ascii : c.toNat < 128) (suffix : rest <:+ source) :
    find? c (bytesOf source) (offsetOf source rest) =
      if c ∈ rest then some (offsetOf source (rest.dropWhile (· != c))) else none := by
  have within := offsetOf_lt_iff ((List.dropWhile_suffix (· != c)).trans suffix)
  rw [ne_eq, dropWhile_ne_eq_nil_iff, not_not] at within
  rw [find?, skipWhile_offsetOf (.ne ascii) suffix]
  exact if_congr within rfl rfl

theorem behindTag_offsetOf (suffix : rest <:+ source) :
    behindTag (bytesOf source) (offsetOf source rest) =
      offsetOf source (Token.behindTag rest) := by
  rw [behindTag, find?_offsetOf (by decide) suffix, Token.behindTag]
  have ends := (List.dropWhile_suffix (· != '>')).trans suffix
  cases behind : rest.dropWhile (· != '>') with
  | nil => rw [if_neg (dropWhile_ne_eq_nil_iff.1 behind), List.drop_nil, offsetOf_nil]
  | cons sign more =>
      have present : '>' ∈ rest := by
        by_contra absent
        rw [dropWhile_ne_eq_nil_iff.2 absent] at behind
        cases behind
      have same : sign = '>' := by
        simpa [behind] using List.head?_dropWhile_not (· != '>') rest
      rw [behind] at ends
      subst same
      rw [if_pos present]
      exact offsetOf_cons ends

end Offsets

/-- Bytes that begin with an ASCII character are those of a text that does. -/
theorem exists_of_bytesOf_cons (ascii : c.toNat < 128) {bytes : List UInt8}
    (begins : bytesOf cs = c.toUInt8 :: bytes) : ∃ rest, cs = c :: rest ∧ bytesOf rest = bytes := by
  have first : cs.head? = some c := by
    rw [← head?_bytesOf_eq_some_iff ascii, begins, List.head?_cons, Option.map_some,
      ofUInt8_toUInt8 ascii]
  obtain ⟨rest, rfl⟩ := List.head?_eq_some_iff.1 first
  rw [bytesOf_cons, utf8EncodeChar_of_ascii ascii, List.singleton_append] at begins
  exact ⟨rest, rfl, (List.cons.inj begins).2⟩

/-- Bytes that begin with an ASCII word are those of a text that does. -/
theorem exists_of_bytesOf_append {word : List Char} (ascii : ∀ c ∈ word, c.toNat < 128)
    {bytes : List UInt8} (begins : bytesOf cs = bytesOf word ++ bytes) :
    ∃ rest, cs = word ++ rest ∧ bytesOf rest = bytes := by
  induction word generalizing cs with
  | nil => exact ⟨cs, rfl, begins⟩
  | cons c word ih =>
      obtain ⟨small, others⟩ := List.forall_mem_cons.1 ascii
      rw [bytesOf_cons, utf8EncodeChar_of_ascii small] at begins
      obtain ⟨more, rfl, behind⟩ := exists_of_bytesOf_cons small begins
      obtain ⟨rest, rfl, ends⟩ := ih others behind
      exact ⟨rest, rfl, ends⟩

/-- A word is seen where an end of the text begins with it. -/
theorem startsWith_offsetOf {source word : List Char} (ascii : ∀ c ∈ word, c.toNat < 128)
    (suffix : rest <:+ source) :
    startsWith word (bytesOf source) (offsetOf source rest) = word.isPrefixOf rest := by
  rw [startsWith, drop_offsetOf suffix, Bool.eq_iff_iff, List.isPrefixOf_iff_prefix,
    List.isPrefixOf_iff_prefix]
  constructor
  · rintro ⟨bytes, begins⟩
    obtain ⟨more, rfl, -⟩ := exists_of_bytesOf_append ascii begins.symm
    exact List.prefix_append word more
  · rintro ⟨more, rfl⟩
    exact ⟨bytesOf more, (bytesOf_append word more).symm⟩

end Cursor
end Markup
end Pagelet
