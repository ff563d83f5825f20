import Mathlib.Data.List.Forall2
import Pagelet.Proofs.Markup.Escaping
import Pagelet.Proofs.Text.Numerals

/-!
# References and the characters they stand for

The body of a reference is a name, or a code in decimal or hexadecimal digits behind its sign.
Reading a reference finds such a body before the semicolon, whatever follows, so a text in which
any characters are written as references is decoded to the text that was meant.
-/

namespace Pagelet
namespace Markup
namespace Reference

open Text (Writes digit? plusSigns word32?)

/-- How codes begin, with the base of their digits. -/
def codeOpenings : List (List Char × Nat) :=
  [(['#'], 10), (['#', 'x'], 16), (['#', 'X'], 16)]

/-- The body of a reference to a character.  In front of the digits of a code stands one of the
signs.  All bodies are ASCII and at most ten characters long. -/
inductive Denotes (signs : List (List Char)) : List Char → Char → Prop
  /-- The character has a name. -/
  | name {name : String} {c : Char} (listed : (name, c) ∈ named) : Denotes signs name.toList c
  /-- The digits write the code of the character. -/
  | code {opening sign digits : List Char} {base : Nat} {c : Char}
      (opens : (opening, base) ∈ codeOpenings) (isSign : sign ∈ signs)
      (writes : Writes base digits c.toNat) (short : (opening ++ sign ++ digits).length ≤ 10) :
      Denotes signs (opening ++ sign ++ digits) c

/-- The digits of a code stand right behind its opening. -/
abbrev unsigned : List (List Char) := [[]]

variable {signs more : List (List Char)} {body cs behind : List Char} {c : Char}

/-- What some signs let a reference denote, more signs do too. -/
theorem Denotes.mono (fewer : ∀ sign ∈ signs, sign ∈ more) (denotes : Denotes signs body c) :
    Denotes more body c := by
  cases denotes with
  | name listed => exact .name listed
  | code opens isSign writes short => exact .code opens (fewer _ isSign) writes short

/-- The table of names gives each listed name its character. -/
theorem lookup_named_eq_some_iff {name : String} :
    named.lookup name = some c ↔ (name, c) ∈ named := by
  constructor
  · intro found
    obtain ⟨front, back, whole, -⟩ := List.lookup_eq_some_iff.1 found
    simp [whole]
  · intro listed
    simp only [named, List.mem_cons, Prod.mk.injEq, List.not_mem_nil, or_false] at listed
    rcases listed with ⟨rfl, rfl⟩ | ⟨rfl, rfl⟩ | ⟨rfl, rfl⟩ | ⟨rfl, rfl⟩ | ⟨rfl, rfl⟩ | ⟨rfl, rfl⟩
    all_goals rfl

/-- A number is the code of one character at most. -/
theorem scalar?_eq_some_iff {code : Nat} : scalar? code = some c ↔ code = c.toNat := by
  constructor
  · intro found
    obtain ⟨valid, same⟩ := Option.ite_none_right_eq_some.1 found
    rw [← Option.some.inj same, Char.ofNat, dif_pos valid]
    rfl
  · rintro rfl
    rw [scalar?, if_pos (show c.toNat.isValidChar from c.valid), Char.ofNat_toNat]

/-- The character of a code in a base, with a sign in front or without one. -/
theorem bind_scalar?_eq_some_iff {base : Nat} (atLeast : 1 < base) (atMost : base ≤ 16) :
    (word32? base cs).bind scalar? = some c ↔
      ∃ sign ∈ plusSigns, ∃ digits, cs = sign ++ digits ∧ Writes base digits c.toNat := by
  have inRange : c.toNat ≤ 0xFFFFFFFF := Nat.le_of_lt_succ c.val.toNat_lt
  simp only [Option.bind_eq_some_iff, scalar?_eq_some_iff,
    Text.word32?_eq_some_iff atLeast atMost, exists_eq_right, inRange, and_true]

/-- A text that does not begin with a digit or a sign writes no code. -/
theorem bind_scalar?_cons_eq_none {base : Nat} (atLeast : 1 < base) (atMost : base ≤ 16)
    (noDigit : digit? base c = none) (noSign : c ≠ '+') :
    (word32? base (c :: cs)).bind scalar? = none := by
  rw [Option.eq_none_iff_forall_ne_some]
  intro d found
  obtain ⟨sign, isSign, digits, whole, writes⟩ :=
    (bind_scalar?_eq_some_iff atLeast atMost).1 found
  simp only [plusSigns, List.mem_cons, List.not_mem_nil, or_false] at isSign
  rcases isSign with rfl | rfl
  · rw [List.nil_append] at whole
    subst whole
    exact Text.not_mem_of_writes atLeast atMost noDigit writes List.mem_cons_self
  · exact noSign (List.cons.inj whole).1

theorem ne_of_mem_named {name : String} (listed : (name, c) ∈ named) (rest : List Char) :
    name.toList ≠ '#' :: rest := by
  intro same
  have plain : named.all (fun entry => entry.1.toList.head? != some '#') = true := by decide
  simpa [same] using List.all_eq_true.1 plain _ listed

/-- A listed name reads as its character. -/
theorem char?_name {name : String} (listed : (name, c) ∈ named) :
    char? name.toList = some c := by
  unfold char?
  rw [String.ofList_toList, lookup_named_eq_some_iff.2 listed]

/-- What begins with the sign of a code is no name. -/
theorem char?_cons_eq (rest : List Char) :
    char? ('#' :: rest) =
      match rest with
      | 'x' :: digits => (word32? 16 digits).bind scalar?
      | 'X' :: digits => (word32? 16 digits).bind scalar?
      | _ => (word32? 10 rest).bind scalar? := by
  have unnamed : named.lookup (String.ofList ('#' :: rest)) = none := by
    rw [Option.eq_none_iff_forall_ne_some]
    intro c found
    have listed := lookup_named_eq_some_iff.1 found
    exact ne_of_mem_named listed rest (String.toList_ofList)
  unfold char?
  rw [unnamed]
  cases rest with
  | nil => rfl
  | cons d digits =>
      by_cases small : d = 'x'
      · subst small
        rfl
      · by_cases capital : d = 'X'
        · subst capital
          rfl
        · simp [small, capital]

/-- A code that opens with its base reads as the character with that number. -/
theorem char?_code {opening : List Char} {base : Nat} (opens : (opening, base) ∈ codeOpenings)
    (found : (word32? base cs).bind scalar? = some c) : char? (opening ++ cs) = some c := by
  simp only [codeOpenings, List.mem_cons, Prod.mk.injEq, List.not_mem_nil, or_false] at opens
  rcases opens with ⟨rfl, rfl⟩ | ⟨rfl, rfl⟩ | ⟨rfl, rfl⟩
  · rw [List.singleton_append, char?_cons_eq]
    split
    · -- no decimal code begins with the sign of hexadecimal digits
      rw [bind_scalar?_cons_eq_none (by decide) (by decide) (by decide) (by decide)] at found
      cases found
    · rw [bind_scalar?_cons_eq_none (by decide) (by decide) (by decide) (by decide)] at found
      cases found
    · exact found
  · exact (char?_cons_eq _).trans found
  · exact (char?_cons_eq _).trans found

/-- A body that stands for a character is a name of it or writes its code. -/
theorem name_or_code_of_char? (found : char? body = some c) :
    (∃ name, (name, c) ∈ named ∧ body = name.toList) ∨
      ∃ opening base, (opening, base) ∈ codeOpenings ∧
        ∃ rest, body = opening ++ rest ∧ (word32? base rest).bind scalar? = some c := by
  unfold char? at found
  split at found
  · next d listed =>
    obtain rfl := Option.some.inj found
    exact .inl ⟨_, lookup_named_eq_some_iff.1 listed, String.toList_ofList.symm⟩
  · refine .inr ?_
    split at found
    · exact ⟨['#', 'x'], 16, by simp [codeOpenings], _, rfl, found⟩
    · exact ⟨['#', 'X'], 16, by simp [codeOpenings], _, rfl, found⟩
    · exact ⟨['#'], 10, by simp [codeOpenings], _, rfl, found⟩
    · cases found

theorem base_of_mem_codeOpenings {opening : List Char} {base : Nat}
    (opens : (opening, base) ∈ codeOpenings) : 1 < base ∧ base ≤ 16 := by
  have bounds : codeOpenings.all (fun entry => 1 < entry.2 && entry.2 ≤ 16) = true := by decide
  simpa using List.all_eq_true.1 bounds _ opens

/-- A short body is read as the character that it denotes, with a plus sign in front of its digits
or without one. -/
theorem char?_eq_some_iff (short : body.length ≤ 10) :
    char? body = some c ↔ Denotes plusSigns body c := by
  constructor
  · intro found
    rcases name_or_code_of_char? found with
      ⟨name, listed, rfl⟩ | ⟨opening, base, opens, rest, rfl, code⟩
    · exact .name listed
    · obtain ⟨atLeast, atMost⟩ := base_of_mem_codeOpenings opens
      obtain ⟨sign, isSign, digits, rfl, writes⟩ := (bind_scalar?_eq_some_iff atLeast atMost).1 code
      rw [← List.append_assoc] at short ⊢
      exact .code opens isSign writes short
  · intro denotes
    cases denotes with
    | name listed => exact char?_name listed
    | @code opening sign digits base _ opens isSign writes _ =>
        obtain ⟨atLeast, atMost⟩ := base_of_mem_codeOpenings opens
        rw [List.append_assoc]
        exact char?_code opens
          ((bind_scalar?_eq_some_iff atLeast atMost).2 ⟨sign, isSign, digits, rfl, writes⟩)

/-- The body of a reference takes at most ten bytes. -/
theorem Denotes.length_le (denotes : Denotes signs body c) : body.length ≤ 10 := by
  cases denotes with
  | name listed =>
      have short : named.all (fun entry => entry.1.toList.length ≤ 10) = true := by decide
      simpa using List.all_eq_true.1 short _ listed
  | code _ _ _ short => exact short

/-- No body holds a character that occurs in no name, no opening, no sign and no number. -/
theorem Denotes.not_mem {mark : Char} (noName : ∀ entry ∈ named, mark ∉ entry.1.toList)
    (noOpening : ∀ entry ∈ codeOpenings, mark ∉ entry.1 ∧ digit? entry.2 mark = none)
    (noSign : ∀ sign ∈ signs, mark ∉ sign) (denotes : Denotes signs body c) : mark ∉ body := by
  cases denotes with
  | name listed => exact noName _ listed
  | code opens isSign writes _ =>
      obtain ⟨atLeast, atMost⟩ := base_of_mem_codeOpenings opens
      obtain ⟨inOpening, noDigit⟩ := noOpening _ opens
      rw [List.mem_append, List.mem_append, not_or, not_or]
      exact ⟨⟨inOpening, noSign _ isSign⟩,
        Text.not_mem_of_writes atLeast atMost noDigit writes⟩

/-- The semicolon that is found is the first one, and it is within reach. -/
theorem cutSemicolon?_eq_some_iff {limit : Nat} :
    cutSemicolon? limit cs = some (body, behind) ↔
      cs = body ++ ';' :: behind ∧ ';' ∉ body ∧ body.length < limit := by
  fun_induction cutSemicolon? limit cs generalizing body with
  | case1 => simp
  | case2 => simp
  | case3 limit rest =>
      constructor
      · intro found
        cases found
        simp
      · rintro ⟨whole, absent, -⟩
        cases body with
        | nil => cases whole; rfl
        | cons d body => cases whole; simp at absent
  | case4 limit c rest other ih =>
      constructor
      · intro found
        obtain ⟨⟨front, back⟩, cut, parts⟩ := Option.map_eq_some_iff.1 found
        cases parts
        obtain ⟨rfl, absent, short⟩ := ih.1 cut
        simpa [Ne.symm other, absent] using short
      · rintro ⟨whole, absent, short⟩
        cases body with
        | nil => cases whole; exact absurd rfl other
        | cons d body =>
            cases whole
            rw [List.mem_cons, not_or] at absent
            rw [ih.2 ⟨rfl, absent.2, Nat.lt_of_succ_lt_succ short⟩]
            rfl

/-- The body of a reference ends at the first semicolon. -/
theorem Denotes.cutSemicolon?_eq (denotes : Denotes plusSigns body c) (behind : List Char) :
    cutSemicolon? reach (body ++ ';' :: behind) = some (body, behind) :=
  cutSemicolon?_eq_some_iff.2 ⟨rfl, denotes.not_mem (by decide) (by decide) (by decide),
    Nat.lt_succ_of_le denotes.length_le⟩

/-- Reading finds a reference exactly where a body and a semicolon stand. -/
theorem read?_eq_some_iff :
    read? cs = some (c, behind) ↔
      ∃ body, Denotes plusSigns body c ∧ cs = body ++ ';' :: behind := by
  simp only [read?, Option.bind_eq_bind, Option.bind_eq_some_iff, Option.some.injEq,
    Prod.mk.injEq, Prod.exists]
  constructor
  · rintro ⟨body, _, cut, _, found, rfl, rfl⟩
    obtain ⟨rfl, -, short⟩ := cutSemicolon?_eq_some_iff.1 cut
    exact ⟨body, (char?_eq_some_iff (Nat.le_of_lt_succ short)).1 found, rfl⟩
  · rintro ⟨body, denotes, rfl⟩
    exact ⟨body, behind, denotes.cutSemicolon?_eq behind, c,
      (char?_eq_some_iff denotes.length_le).2 denotes, rfl, rfl⟩

/-- A way to write a character: as it is, or as a reference. -/
inductive Spells : List Char → Char → Prop
  /-- The character stands as it is, unless it begins references. -/
  | itself {c : Char} (plain : c ≠ '&') : Spells [c] c
  /-- The character is written by name or by its code. -/
  | reference {body : List Char} {c : Char} (denotes : Denotes unsigned body c) :
      Spells ('&' :: body ++ [';']) c

/-- A spelling decodes to its character, whatever comes behind it. -/
theorem decode_spells {word : List Char} (spells : Spells word c) (rest : List Char) :
    decode (word ++ rest) = c :: decode rest := by
  cases spells with
  | itself plain => exact decode_cons plain rest
  | @reference body _ denotes =>
      have signed : Denotes plusSigns body c := denotes.mono (by simp [plusSigns])
      have shape : '&' :: body ++ [';'] ++ rest = '&' :: (body ++ ';' :: rest) := by simp
      rw [shape]
      exact decode_reference (read?_eq_some_iff.2 ⟨body, signed, rfl⟩)

/-- Every character is read back from its spelling, and what follows is decoded by itself. -/
theorem decode_flatten {words : List (List Char)} {text : List Char}
    (spelled : List.Forall₂ Spells words text) (rest : List Char) :
    decode (words.flatten ++ rest) = text ++ decode rest := by
  induction spelled with
  | nil => rfl
  | cons spells others ih =>
      rw [List.flatten_cons, List.append_assoc, decode_spells spells, ih, List.cons_append]

end Reference

open Reference (Spells)

/-- A text is decoded from every way to write its characters.  What has been decoded is not looked
at again: whatever follows is decoded as if it stood alone. -/
theorem decodeReferences_spelled {words : List (List Char)} {text : String}
    (spelled : List.Forall₂ Spells words text.toList) :
    decodeReferences (String.ofList words.flatten) = text ∧
      ∀ rest : String, decodeReferences (String.ofList words.flatten ++ rest) =
        text ++ decodeReferences rest := by
  have behind (rest : String) : decodeReferences (String.ofList words.flatten ++ rest) =
      text ++ decodeReferences rest := by
    rw [decodeReferences, String.toList_append, String.toList_ofList,
      Reference.decode_flatten spelled, String.ofList_append, String.ofList_toList]
    rfl
  have nothing : decodeReferences "" = "" := congrArg String.ofList Reference.decode.eq_1
  have alone := behind ""
  rw [nothing, String.append_empty, String.append_empty] at alone
  exact ⟨alone, behind⟩

/-- A text that looks like a reference, with three of its characters written by their codes. -/
def wordsOfReference : List (List Char) :=
  ["&#x0026;".toList, ['l'], "&#116;".toList, [';'], "&#XE9;".toList, "&nbsp;".toList]

theorem decodeReferences_spelled_wordsOfReference :
    List.Forall₂ Spells wordsOfReference "&lt;é\u00a0".toList ∧
      decodeReferences "&#x0026;l&#116;;&#XE9;&nbsp;" = "&lt;é\u00a0" ∧
      ∀ rest : String, decodeReferences ("&#x0026;l&#116;;&#XE9;&nbsp;" ++ rest) =
        "&lt;é\u00a0" ++ decodeReferences rest := by
  have ampersand : Spells "&#x0026;".toList '&' :=
    .reference (@Reference.Denotes.code _ ['#', 'x'] [] ['0', '0', '2', '6'] 16 '&'
      (by decide) (by decide) ⟨2, by decide⟩ (by decide))
  have tee : Spells "&#116;".toList 't' :=
    .reference (@Reference.Denotes.code _ ['#'] [] ['1', '1', '6'] 10 't'
      (by decide) (by decide) ⟨0, by decide⟩ (by decide))
  have accented : Spells "&#XE9;".toList 'é' :=
    .reference (@Reference.Denotes.code _ ['#', 'X'] [] ['E', '9'] 16 'é'
      (by decide) (by decide) ⟨0, by decide⟩ (by decide))
  have blank : Spells "&nbsp;".toList '\u00a0' :=
    .reference (@Reference.Denotes.name _ "nbsp" '\u00a0' (by decide))
  have spelled : List.Forall₂ Spells wordsOfReference "&lt;é\u00a0".toList :=
    .cons ampersand <| .cons (.itself (by decide)) <| .cons tee <| .cons (.itself (by decide)) <|
      .cons accented <| .cons blank .nil
  have written : String.ofList wordsOfReference.flatten = "&#x0026;l&#116;;&#XE9;&nbsp;" := by
    decide +kernel
  rw [← written]
  exact ⟨spelled, decodeReferences_spelled spelled⟩

end Markup
end Pagelet
