import Pagelet.Markup.Reference
import Pagelet.Markup.Token
import Pagelet.Text.Blank

/-!
# Reading tags

Start tags and end tags, read from the text behind their `<` or `</`.  Names are
made small, attribute values may stand between quotes of either kind or bare,
and character references in values are replaced.
-/

namespace Pagelet
namespace Markup
namespace Token

open Text (isAsciiBlank)

/-- A character of a tag's or an attribute's name. -/
def isNameChar (c : Char) : Bool :=
  c.isAlphanum || c == '-' || c == '_' || c == ':'

/-- The text without the ASCII blanks at its front. -/
def skipBlanks (cs : List Char) : List Char :=
  cs.dropWhile isAsciiBlank

/-- The text behind the next `>`, or nothing if there is none. -/
def behindTag (cs : List Char) : List Char :=
  (cs.dropWhile (· != '>')).drop 1

/-- The text behind the next `-->`, or nothing if there is none. -/
def behindComment : List Char → List Char
  | [] => []
  | '-' :: '-' :: '>' :: rest => rest
  | _ :: rest => behindComment rest

/-- The name at the front of the text, in small letters, and the rest. -/
def readName? (cs : List Char) : Option (String × List Char) :=
  match cs.takeWhile isNameChar with
  | [] => none
  | name => some (String.ofList (name.map Char.toLower), cs.dropWhile isNameChar)

/-- The value of an attribute as written, and the rest.  A quoted value without
its closing mark runs to the end. -/
def readValue (cs : List Char) : List Char × List Char :=
  match cs with
  | '"' :: rest => (rest.takeWhile (· != '"'), (rest.dropWhile (· != '"')).drop 1)
  | '\'' :: rest => (rest.takeWhile (· != '\''), (rest.dropWhile (· != '\'')).drop 1)
  | _ =>
      let isPlain (c : Char) : Bool := !isAsciiBlank c && c != '>'
      (cs.takeWhile isPlain, cs.dropWhile isPlain)

theorem length_skipBlanks_le (cs : List Char) : (skipBlanks cs).length ≤ cs.length :=
  (List.dropWhile_suffix _).length_le

theorem length_behindTag_le (cs : List Char) : (behindTag cs).length ≤ cs.length := by
  have := (List.dropWhile_suffix (l := cs) (· != '>')).length_le
  simp only [behindTag, List.length_drop]
  omega

theorem length_behindComment_le (cs : List Char) :
    (behindComment cs).length ≤ cs.length := by
  fun_induction behindComment cs <;> simp_all <;> omega

/-- A name takes at least one character. -/
theorem length_lt_of_readName? {cs rest : List Char} {name : String}
    (h : readName? cs = some (name, rest)) : rest.length < cs.length := by
  unfold readName? at h
  split at h
  · simp at h
  · next nonempty =>
    simp only [Option.some.injEq, Prod.mk.injEq] at h
    have whole := List.takeWhile_append_dropWhile (p := isNameChar) (l := cs)
    have sum := congrArg List.length whole
    have positive := List.length_pos_iff.2 nonempty
    simp only [List.length_append] at sum
    rw [← h.2]
    omega

theorem length_readValue_le (cs : List Char) : (readValue cs).2.length ≤ cs.length := by
  unfold readValue
  split
  · have := (List.dropWhile_suffix (l := ‹List Char›) (· != '"')).length_le
    simp only [List.length_drop, List.length_cons]
    omega
  · have := (List.dropWhile_suffix (l := ‹List Char›) (· != '\'')).length_le
    simp only [List.length_drop, List.length_cons]
    omega
  · exact (List.dropWhile_suffix _).length_le

/-- What stands in a tag behind its name, and the text behind the tag. -/
structure TagEnd where
  /-- The attributes. -/
  attributes : Attributes
  /-- Whether the tag ends with a slash. -/
  selfClosing : Bool
  /-- The text behind the tag. -/
  behind : List Char
deriving DecidableEq, Repr

/-- The same tag with one more attribute in front. -/
def TagEnd.cons (name : String) (value : List Char) (tag : TagEnd) : TagEnd :=
  { tag with
    attributes := (name, String.ofList (Reference.decode value)) :: tag.attributes }

/-- Reads a start tag behind its name.  Characters that no name may hold end the
list of attributes; a tag that is not closed is none. -/
def readTagEnd? (cs : List Char) : Option TagEnd :=
  match _blanks : skipBlanks cs with
  | [] => none
  | '>' :: rest => some ⟨[], false, rest⟩
  | '/' :: rest =>
      match _slash : skipBlanks rest with
      | '>' :: behind => some ⟨[], true, behind⟩
      | more => readTagEnd? more
  | c :: rest =>
      match _name : readName? (c :: rest) with
      | none => some ⟨[], false, behindTag (c :: rest)⟩
      | some (name, rest) =>
          match _sign : skipBlanks rest with
          | '=' :: more =>
              (readTagEnd? (readValue (skipBlanks more)).2).map
                (TagEnd.cons name (readValue (skipBlanks more)).1)
          | more => (readTagEnd? more).map (TagEnd.cons name [])
termination_by cs.length
decreasing_by
  · have first := length_skipBlanks_le cs
    have second := length_skipBlanks_le rest
    rw [_blanks] at first
    rw [_slash] at second
    simp only [List.length_cons] at first
    omega
  · have first := length_skipBlanks_le cs
    have name_lt := length_lt_of_readName? _name
    have second := length_skipBlanks_le rest
    have third := length_skipBlanks_le more
    have fourth := length_readValue_le (skipBlanks more)
    rw [_blanks] at first
    rw [_sign] at second
    simp only [List.length_cons] at first second name_lt
    omega
  · have first := length_skipBlanks_le cs
    have name_lt := length_lt_of_readName? _name
    have second := length_skipBlanks_le rest
    rw [_blanks] at first
    rw [_sign] at second
    simp only [List.length_cons] at first name_lt
    omega

/-- Reads a start tag behind its `<`: its name, and what follows the name. -/
def readStartTag? (cs : List Char) : Option (String × TagEnd) :=
  match cs with
  | [] => none
  | c :: _ =>
      if c.isAlpha then do
        let (name, rest) ← readName? cs
        let tag ← readTagEnd? rest
        some (name, tag)
      else none

/-- Reads an end tag behind its `</`: its name, and the text behind it. -/
def readEndTag? (cs : List Char) : Option (String × List Char) := do
  let (name, rest) ← readName? (skipBlanks cs)
  if rest.contains '>' then some (name, behindTag rest) else none

/-- An end tag is cut off the front of the text. -/
theorem length_le_of_readEndTag? {cs behind : List Char} {name : String}
    (h : readEndTag? cs = some (name, behind)) : behind.length ≤ cs.length := by
  unfold readEndTag? at h
  cases named : readName? (skipBlanks cs) with
  | none => simp [named] at h
  | some parts =>
      obtain ⟨spelling, rest⟩ := parts
      have first := length_skipBlanks_le cs
      have second := length_lt_of_readName? named
      have third := length_behindTag_le rest
      simp only [named, Option.bind_eq_bind, Option.bind_some] at h
      split at h
      · simp only [Option.some.injEq, Prod.mk.injEq] at h
        rw [← h.2]
        omega
      · simp at h

end Token
end Markup
end Pagelet
