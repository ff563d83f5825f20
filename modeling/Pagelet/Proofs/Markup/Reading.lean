import Mathlib
import Pagelet.Markup.Token.Scan
import Pagelet.Proofs.Markup.Writing

/-!
# Reading written tokens

Each reader gets back from a written token what the token was made of, whatever stands
behind it.  Names are read up to the first character that no name may hold, and a raw
body up to the first end tag of its name.
-/

namespace Pagelet
namespace Markup

open Text (isAsciiBlank)

section Spans

variable {α : Type _} {p : α → Bool} {front back : List α}

/-- A span ends at the first character outside the class. -/
theorem takeWhile_append_stop (inside : ∀ c ∈ front, p c = true)
    (stop : ∀ c ∈ back.head?, p c = false) : (front ++ back).takeWhile p = front := by
  rw [List.takeWhile_append_of_pos inside]
  cases back with
  | nil => simp
  | cons c rest => simp [stop c rfl]

/-- A span ends at the first character outside its class. -/
theorem dropWhile_append_stop (inside : ∀ c ∈ front, p c = true)
    (stop : ∀ c ∈ back.head?, p c = false) : (front ++ back).dropWhile p = back := by
  rw [List.dropWhile_append_of_pos inside]
  cases back with
  | nil => rfl
  | cons c rest => simp [stop c rfl]

theorem ne_of_not_mem {mark : Char} {cs : List Char} (absent : mark ∉ cs) :
    ∀ c ∈ cs, (c != mark) = true := by
  intro c member
  simp only [bne_iff_ne, ne_eq]
  rintro rfl
  exact absent member

end Spans

theorem isAsciiBlank_of_isNameChar {c : Char} (inName : Token.isNameChar c = true) :
    isAsciiBlank c = false := by
  cases blank : isAsciiBlank c with
  | false => rfl
  | true =>
      simp only [isAsciiBlank, Bool.or_eq_true, beq_iff_eq] at blank
      rcases blank with (((rfl | rfl) | rfl) | rfl) | rfl <;> exact absurd inName (by decide)

theorem isNameChar_of_isSmallNameChar {c : Char} (small : isSmallNameChar c = true) :
    Token.isNameChar c = true := by
  simp only [isSmallNameChar, Bool.or_eq_true, beq_iff_eq] at small
  rcases small with (((lower | digit) | rfl) | rfl) | rfl
  · simp [Token.isNameChar, Char.isAlphanum, Char.isAlpha, lower]
  · simp [Token.isNameChar, Char.isAlphanum, digit]
  all_goals decide

theorem toLower_of_isSmallNameChar {c : Char} (small : isSmallNameChar c = true) :
    c.toLower = c := by
  simp only [isSmallNameChar, Bool.or_eq_true, beq_iff_eq] at small
  rcases small with (((lower | digit) | rfl) | rfl) | rfl
  · exact Char.toLower_eq_of_not_isUpper (Char.not_isUpper_of_isLower lower)
  · refine Char.toLower_eq_of_not_isUpper fun upper => ?_
    grind [Char.isUpper, Char.isDigit]
  all_goals rfl

namespace IsName

variable {name : String} {rest : List Char}

theorem isNameChar (isName : IsName name) : ∀ c ∈ name.toList, Token.isNameChar c = true :=
  fun c member => isNameChar_of_isSmallNameChar (isName.small c member)

theorem map_toLower (isName : IsName name) : name.toList.map Char.toLower = name.toList :=
  calc
    name.toList.map Char.toLower = name.toList.map id :=
      List.map_congr_left fun c member => toLower_of_isSmallNameChar (isName.small c member)
    _ = name.toList := List.map_id _

theorem not_mem (isName : IsName name) {mark : Char} (sign : isSmallNameChar mark = false) :
    mark ∉ name.toList := by
  intro member
  exact absurd (isName.small mark member) (by simp [sign])

/-- A name is read up to the first character that no name may hold. -/
theorem readName?_append (isName : IsName name)
    (stop : ∀ c ∈ rest.head?, Token.isNameChar c = false) :
    Token.readName? (name.toList ++ rest) = some (name, rest) := by
  unfold Token.readName?
  rw [takeWhile_append_stop isName.isNameChar stop, dropWhile_append_stop isName.isNameChar stop]
  split
  · next empty => exact absurd empty isName.notEmpty
  · rw [isName.map_toLower, String.ofList_toList]

/-- Blanks in front of a name end where it begins. -/
theorem skipBlanks_append (isName : IsName name) (rest : List Char) :
    Token.skipBlanks (name.toList ++ rest) = name.toList ++ rest := by
  obtain ⟨c, more, spelled⟩ := List.exists_cons_of_ne_nil isName.notEmpty
  have notBlank := isAsciiBlank_of_isNameChar (isName.isNameChar c (by simp [spelled]))
  simp [Token.skipBlanks, spelled, notBlank]

end IsName

theorem IsTagName.isAlpha {name : String} (isTagName : IsTagName name) {c : Char}
    {more : List Char} (spelled : name.toList = c :: more) : c.isAlpha = true := by
  have lower := isTagName.starts c (by simp [spelled])
  simp [Char.isAlpha, lower]

namespace Token

/-- A tag ends at its first closing bracket. -/
theorem behindTag_append {cs : List Char} (absent : '>' ∉ cs) (rest : List Char) :
    behindTag (cs ++ '>' :: rest) = rest := by
  rw [behindTag, dropWhile_append_stop (ne_of_not_mem absent) (by simp)]
  rfl

/-- An end tag is read back behind its `</`. -/
theorem readEndTag?_append {name : String} (isName : IsName name) (rest : List Char) :
    readEndTag? (name.toList ++ '>' :: rest) = some (name, rest) := by
  have sign : isNameChar '>' = false := by decide
  have ends : ∀ c ∈ ('>' :: rest).head?, isNameChar c = false := by simpa using sign
  have read := isName.readName?_append ends
  have behind : behindTag ('>' :: rest) = rest := behindTag_append List.not_mem_nil rest
  simp [readEndTag?, isName.skipBlanks_append, read, behind]

section Attributes

variable {name : String} {cs value rest : List Char}

theorem readTagEnd?_of_close (blanks : skipBlanks cs = '>' :: rest) :
    readTagEnd? cs = some ⟨[], false, rest⟩ := by
  rw [readTagEnd?]
  split <;> simp_all

theorem readTagEnd?_of_slash {slash : List Char} (blanks : skipBlanks cs = '/' :: slash)
    (ends : skipBlanks slash = '>' :: rest) : readTagEnd? cs = some ⟨[], true, rest⟩ := by
  rw [readTagEnd?]
  split
  all_goals try simp_all
  split <;> simp_all

/-- An attribute with a value is read, and then those behind it. -/
theorem readTagEnd?_of_name {c : Char} {more behind : List Char}
    (blanks : skipBlanks cs = c :: more) (inName : isNameChar c = true)
    (named : readName? (c :: more) = some (name, behind))
    (sign : skipBlanks behind = '=' :: rest) :
    readTagEnd? cs = (readTagEnd? (readValue (skipBlanks rest)).2).map
      (TagEnd.cons name (readValue (skipBlanks rest)).1) := by
  rw [readTagEnd?]
  split
  · simp_all
  · next here =>
    obtain ⟨rfl, -⟩ := List.cons.inj (blanks.symm.trans here)
    exact absurd inName (by decide)
  · next here =>
    obtain ⟨rfl, -⟩ := List.cons.inj (blanks.symm.trans here)
    exact absurd inName (by decide)
  · next here =>
    obtain ⟨rfl, rfl⟩ := List.cons.inj (blanks.symm.trans here)
    split
    · simp_all
    · next found =>
      simp only [named, Option.some.injEq, Prod.mk.injEq] at found
      obtain ⟨rfl, rfl⟩ := found
      split <;> simp_all

/-- A value between double quotes is read up to the closing one. -/
theorem readValue_quoted (unquoted : '"' ∉ value) (rest : List Char) :
    readValue ('"' :: value ++ '"' :: rest) = (value, rest) := by
  have inside := ne_of_not_mem unquoted
  have stop : ∀ c ∈ ('"' :: rest).head?, (c != '"') = false := by simp
  rw [List.cons_append, readValue, takeWhile_append_stop inside stop,
    dropWhile_append_stop inside stop]
  rfl

/-- An attribute is read back together with the blank before it. -/
theorem readTagEnd?_attribute {entry : String × String} (isName : IsName entry.1)
    (rest : List Char) :
    readTagEnd? (attributeText entry ++ rest) =
      (readTagEnd? rest).map fun tag => { tag with attributes := entry :: tag.attributes } := by
  obtain ⟨name, value⟩ := entry
  obtain ⟨c, more, spelled⟩ := List.exists_cons_of_ne_nil isName.notEmpty
  let written := Reference.EscapeTable.inQuotes.escape value.toList
  have unquoted : '"' ∉ written :=
    Reference.EscapeTable.inQuotes.not_mem_escape rfl (by decide)
  let quoted := '"' :: written ++ '"' :: rest
  have blanks : skipBlanks (attributeText (name, value) ++ rest) =
      c :: (more ++ '=' :: quoted) := by
    have shape : attributeText (name, value) ++ rest = ' ' :: (name.toList ++ '=' :: quoted) := by
      simp [attributeText, quoted, written]
    have space (cs : List Char) : skipBlanks (' ' :: cs) = skipBlanks cs := rfl
    rw [shape, space, isName.skipBlanks_append, spelled, List.cons_append]
  have named : readName? (c :: (more ++ '=' :: quoted)) = some (name, '=' :: quoted) := by
    rw [← List.cons_append, ← spelled]
    exact isName.readName?_append (by simp; decide)
  have inName : isNameChar c = true := isName.isNameChar c (by simp [spelled])
  have opened : skipBlanks quoted = quoted := rfl
  have decoded : TagEnd.cons name written =
      fun tag => { tag with attributes := (name, value) :: tag.attributes } := by
    funext tag
    rw [TagEnd.cons, Reference.decode_escape, String.ofList_toList]
  rw [readTagEnd?_of_name blanks inName named rfl, opened, readValue_quoted unquoted, decoded]

/-- The attributes and the end of a start tag are read back. -/
theorem readTagEnd?_append {attributes : Attributes} (named : attributes.Named)
    (selfClosing : Bool) (rest : List Char) :
    readTagEnd? (attributes.flatMap attributeText ++ closingText selfClosing ++ rest) =
      some ⟨attributes, selfClosing, rest⟩ := by
  induction attributes with
  | nil =>
      cases selfClosing with
      | false => exact readTagEnd?_of_close rfl
      | true => exact readTagEnd?_of_slash rfl rfl
  | cons entry more ih =>
      obtain ⟨isName, named⟩ := List.forall_mem_cons.1 named
      rw [List.flatMap_cons, List.append_assoc, List.append_assoc, readTagEnd?_attribute isName,
        ← List.append_assoc, ih named]
      rfl

/-- The name of a start tag ends where its attributes or its end begin. -/
theorem stop_attributes (attributes : Attributes) (selfClosing : Bool) (rest : List Char) :
    ∀ c ∈ (attributes.flatMap attributeText ++ closingText selfClosing ++ rest).head?,
      isNameChar c = false := by
  cases attributes with
  | nil => cases selfClosing <;> simp [closingText] <;> decide
  | cons entry more => simp [attributeText]; decide

/-- A start tag is read back behind its `<`. -/
theorem readStartTag?_append {attributes : Attributes} (isTagName : IsTagName name)
    (named : attributes.Named) (selfClosing : Bool) (rest : List Char) :
    readStartTag? (name.toList ++
      (attributes.flatMap attributeText ++ closingText selfClosing ++ rest)) =
        some (name, ⟨attributes, selfClosing, rest⟩) := by
  obtain ⟨c, more, spelled⟩ := List.exists_cons_of_ne_nil isTagName.notEmpty
  have letter := isTagName.isAlpha spelled
  have read := isTagName.readName?_append (stop_attributes attributes selfClosing rest)
  rw [spelled, List.cons_append] at read ⊢
  simp only [readStartTag?, letter, read, readTagEnd?_append named, if_true,
    Option.bind_eq_bind, Option.bind_some]

end Attributes

section Raw

variable {name : String} {cs body behind : List Char}

/-- Blanks are skipped up to the first other character. -/
theorem exists_skipBlanks (cs : List Char) :
    ∃ blanks, cs = blanks ++ skipBlanks cs ∧ ∀ c ∈ blanks, isAsciiBlank c = true :=
  ⟨cs.takeWhile isAsciiBlank, List.takeWhile_append_dropWhile.symm,
    fun _ member => List.mem_takeWhile_imp member⟩

/-- A raw element is closed behind a `<` exactly by an end tag of its name. -/
theorem closeRaw?_eq_some_iff :
    closeRaw? name cs = some behind ↔
      ∃ spelling blanks, cs = '/' :: spelling ++ blanks ++ '>' :: behind ∧
        spelling.map Char.toLower = name.toList.map Char.toLower ∧
          ∀ c ∈ blanks, isAsciiBlank c = true := by
  constructor
  · intro found
    obtain ⟨rest, slash, found⟩ := Option.bind_eq_some_iff.1 found
    obtain ⟨same, found⟩ := Option.ite_none_right_eq_some.1 found
    have whole := Text.behind?_eq_some_iff.1 slash
    have ends := Text.behind?_eq_some_iff.1 found
    obtain ⟨blanks, skipped, blank⟩ := exists_skipBlanks (rest.drop name.length)
    rw [ends] at skipped
    refine ⟨rest.take name.length, blanks, ?_, same, blank⟩
    calc
      cs = '/' :: (rest.take name.length ++ rest.drop name.length) := by
        rw [List.take_append_drop, whole]
        rfl
      _ = _ := by rw [skipped]; simp
  · rintro ⟨spelling, blanks, rfl, same, blank⟩
    have size : name.length = spelling.length := by
      have sizes := congrArg List.length same
      rw [List.length_map, List.length_map, String.length_toList] at sizes
      exact sizes.symm
    have slash : Text.behind? ['/'] ('/' :: spelling ++ blanks ++ '>' :: behind) =
        some (spelling ++ (blanks ++ '>' :: behind)) :=
      Text.behind?_eq_some_iff.2 (by simp)
    have skipped : skipBlanks (blanks ++ '>' :: behind) = '>' :: behind :=
      dropWhile_append_stop blank (by simp; decide)
    have sign : Text.behind? ['>'] ('>' :: behind) = some behind :=
      Text.behind?_eq_some_iff.2 rfl
    simp only [closeRaw?, slash, Option.bind_eq_bind, Option.bind_some, size, List.take_left,
      List.drop_left, if_pos same, skipped, sign]

/-- The text begins with an end tag of the name when a raw element is closed there. -/
theorem startsEndTag_cons {c : Char} :
    StartsEndTag name (c :: cs) ↔ c = '<' ∧ ∃ behind, closeRaw? name cs = some behind := by
  simp only [closeRaw?_eq_some_iff, StartsEndTag, List.cons_append, List.cons.injEq]
  constructor
  · rintro ⟨spelling, blanks, behind, ⟨rfl, rfl⟩, same, blank⟩
    exact ⟨rfl, behind, spelling, blanks, rfl, same, blank⟩
  · rintro ⟨rfl, behind, spelling, blanks, rfl, same, blank⟩
    exact ⟨spelling, blanks, behind, ⟨rfl, rfl⟩, same, blank⟩

/-- An end tag stands at the front of a text or further on. -/
theorem holdsEndTag_cons {c : Char} :
    HoldsEndTag name (c :: cs) ↔ StartsEndTag name (c :: cs) ∨ HoldsEndTag name cs := by
  constructor
  · rintro ⟨before, behind, whole, starts⟩
    cases before with
    | nil => exact .inl (whole ▸ starts)
    | cons d before => exact .inr ⟨before, behind, (List.cons.inj whole).2, starts⟩
  · rintro (starts | ⟨before, behind, rfl, starts⟩)
    · exact ⟨[], c :: cs, rfl, starts⟩
    · exact ⟨c :: before, behind, rfl, starts⟩

/-- A raw body runs to the end of the text exactly when no end tag stands in it. -/
theorem splitRaw?_eq_none_iff : splitRaw? name cs = none ↔ ¬ HoldsEndTag name cs := by
  induction cs with
  | nil =>
      simp only [splitRaw?, true_iff]
      rintro ⟨before, behind, whole, spelling, blanks, after, rfl, -⟩
      simp at whole
  | cons c rest ih =>
      rw [holdsEndTag_cons, startsEndTag_cons, not_or, ← ih, splitRaw?]
      by_cases sign : c = '<'
      · cases closed : closeRaw? name rest <;> simp [sign]
      · simp [sign]

/-- An end tag of a raw element holds no further `<`, so it does not run into another
that stands behind it. -/
theorem closeRaw?_append_eq_none (isName : IsName name) (unclosed : closeRaw? name cs = none)
    (rest : List Char) : closeRaw? name (cs ++ '<' :: rest) = none := by
  by_contra closed
  obtain ⟨behind, closed⟩ := Option.ne_none_iff_exists'.1 closed
  obtain ⟨spelling, blanks, whole, same, blank⟩ := closeRaw?_eq_some_iff.1 closed
  have noSign : '<' ∉ '/' :: spelling ++ blanks ++ ['>'] := by
    have inSpelling : '<' ∉ spelling := by
      intro member
      have lower : '<' ∈ name.toList.map Char.toLower := same ▸ List.mem_map_of_mem member
      exact isName.not_mem (by decide) (isName.map_toLower ▸ lower)
    have inBlanks : '<' ∉ blanks := fun member => absurd (blank '<' member) (by decide)
    simp [inSpelling, inBlanks]
  have split : cs ++ '<' :: rest = '/' :: spelling ++ blanks ++ ['>'] ++ behind := by
    simpa using whole
  -- the closing tag ends before the `<`, so it stands in the front alone
  obtain ⟨tail, front⟩ : ∃ tail, cs = '/' :: spelling ++ blanks ++ ['>'] ++ tail := by
    rcases List.append_eq_append_iff.1 split with ⟨more, front, back⟩ | ⟨tail, front, -⟩
    · cases more with
      | nil => exact ⟨[], by simpa using front.symm⟩
      | cons c more =>
          obtain ⟨rfl, -⟩ := List.cons.inj back
          exact absurd (front ▸ List.mem_append_right cs List.mem_cons_self) noSign
    · exact ⟨tail, front⟩
  have found : closeRaw? name cs = some tail :=
    closeRaw?_eq_some_iff.2 ⟨spelling, blanks, by simpa using front, same, blank⟩
  simp [unclosed] at found

/-- A raw body is read up to the first end tag of its name. -/
theorem splitRaw?_append (isName : IsName name) (unclosed : ¬ HoldsEndTag name body)
    (rest : List Char) :
    splitRaw? name (body ++ finishText name ++ rest) = some (body, rest) := by
  induction body with
  | nil =>
      have closed : closeRaw? name ('/' :: name.toList ++ ['>'] ++ rest) = some rest :=
        closeRaw?_eq_some_iff.2 ⟨name.toList, [], by simp, rfl, nofun⟩
      have shape : [] ++ finishText name ++ rest =
          '<' :: ('/' :: name.toList ++ ['>'] ++ rest) := rfl
      rw [shape, splitRaw?, if_pos rfl, closed]
  | cons c body ih =>
      rw [holdsEndTag_cons, startsEndTag_cons, not_or, not_and, not_exists] at unclosed
      have here : (if c = '<' then closeRaw? name (body ++ finishText name ++ rest) else none) =
          none := by
        split
        · next sign =>
          rw [List.append_assoc]
          have inBody := Option.eq_none_iff_forall_ne_some.2 (unclosed.1 sign)
          exact closeRaw?_append_eq_none isName inBody _
        · rfl
      rw [List.cons_append, List.cons_append, splitRaw?, here]
      simp only [ih unclosed.2, Option.map_some]

/-- A raw body and its end tag are read back. -/
theorem readRaw_append (isName : IsName name) (unclosed : ¬ HoldsEndTag name body)
    (rest : List Char) :
    readRaw name (body ++ finishText name ++ rest) = (rawText body ++ [finish name], rest) := by
  rw [readRaw, splitRaw?_append isName unclosed]

end Raw

end Token
end Markup
end Pagelet
