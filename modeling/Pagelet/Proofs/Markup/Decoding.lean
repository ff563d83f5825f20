import Mathlib.Data.List.Infix
import Pagelet.Proofs.Markup.References

/-!
# What decoding replaces

Decoding replaces the references of a text, one after the other, and copies every other character.
In front of the digits of a code it takes a plus sign as well.  A text that holds no such code is
decoded as its unsigned references say, and one that holds some comes out shorter than that.
-/

namespace Pagelet
namespace Markup
namespace Reference

open Text (plusSigns digit?)

/-- The text begins with a reference. -/
def Begins (signs : List (List Char)) (cs : List Char) : Prop :=
  ∃ body c behind, Denotes signs body c ∧ cs = '&' :: (body ++ ';' :: behind)

/-- The second text is the first one with its references replaced.  A character is copied only
where no reference begins. -/
inductive Decodes (signs : List (List Char)) : List Char → List Char → Prop
  | nil : Decodes signs [] []
  | copied {c : Char} {rest text : List Char} (noReference : ¬ Begins signs (c :: rest))
      (others : Decodes signs rest text) : Decodes signs (c :: rest) (c :: text)
  | replaced {body rest text : List Char} {c : Char} (denotes : Denotes signs body c)
      (others : Decodes signs rest text) : Decodes signs ('&' :: (body ++ ';' :: rest)) (c :: text)

variable {cs text : List Char}

/-- A reference begins where one is read. -/
theorem begins_ampersand_iff :
    Begins plusSigns ('&' :: cs) ↔ ∃ c behind, read? cs = some (c, behind) := by
  simp only [read?_eq_some_iff, Begins, List.cons.injEq, true_and]
  exact ⟨fun ⟨body, c, behind, found⟩ => ⟨c, behind, body, found⟩,
    fun ⟨c, behind, body, found⟩ => ⟨body, c, behind, found⟩⟩

theorem not_begins {signs : List (List Char)} {c : Char} (plain : c ≠ '&') (rest : List Char) :
    ¬ Begins signs (c :: rest) := by
  rintro ⟨body, d, behind, -, whole⟩
  exact plain (List.cons.inj whole).1

/-- A character is copied where no reference begins. -/
theorem decode_cons_of_not_begins {c : Char} {rest : List Char}
    (noReference : ¬ Begins plusSigns (c :: rest)) : decode (c :: rest) = c :: decode rest := by
  by_cases ampersand : c = '&'
  · subst ampersand
    rw [decode, if_pos rfl]
    split
    · next found => exact absurd (begins_ampersand_iff.2 ⟨_, _, found⟩) noReference
    · rfl
  · exact decode_cons ampersand rest

/-- The decoder decodes. -/
theorem decodes_decode (cs : List Char) : Decodes plusSigns cs (decode cs) := by
  fun_induction decode cs with
  | case1 => exact .nil
  | case2 rest decoded behind found ih =>
      obtain ⟨body, denotes, rfl⟩ := read?_eq_some_iff.1 found
      exact .replaced denotes ih
  | case3 rest missing ih =>
      refine .copied (fun begins => ?_) ih
      obtain ⟨c, behind, found⟩ := begins_ampersand_iff.1 begins
      rw [missing] at found
      cases found
  | case4 c rest plain ih => exact .copied (not_begins plain rest) ih

/-- A text decodes in one way only. -/
theorem Decodes.decode_eq (decodes : Decodes plusSigns cs text) : decode cs = text := by
  induction decodes with
  | nil => exact decode.eq_1
  | copied noReference others ih => rw [decode_cons_of_not_begins noReference, ih]
  | @replaced body rest text c denotes others ih =>
      rw [decode_reference (read?_eq_some_iff.2 ⟨body, denotes, rfl⟩), ih]

/-- Decoding replaces the references of a text and nothing else. -/
theorem decode_eq_iff : decode cs = text ↔ Decodes plusSigns cs text :=
  ⟨fun same => same ▸ decodes_decode cs, Decodes.decode_eq⟩

/-- The text begins with a reference to a code with a plus sign. -/
def BeginsSigned (cs : List Char) : Prop :=
  ∃ body c behind, Denotes plusSigns body c ∧ '+' ∈ body ∧ cs = '&' :: (body ++ ';' :: behind)

/-- A reference to a code with a plus sign stands somewhere in the text. -/
def HoldsSigned (cs : List Char) : Prop :=
  ∃ rest, rest <:+ cs ∧ BeginsSigned rest

/-- A body is unsigned exactly if no plus sign stands in it. -/
theorem denotes_unsigned_iff {body : List Char} {c : Char} :
    Denotes unsigned body c ↔ Denotes plusSigns body c ∧ '+' ∉ body := by
  constructor
  · intro denotes
    exact ⟨denotes.mono (by decide), denotes.not_mem (by decide) (by decide) (by decide)⟩
  · rintro ⟨denotes, noPlus⟩
    cases denotes with
    | name listed => exact .name listed
    | code opens isSign writes short =>
        simp only [plusSigns, List.mem_cons, List.not_mem_nil, or_false] at isSign
        rcases isSign with rfl | rfl
        · exact .code opens List.mem_cons_self writes short
        · simp at noPlus

/-- No reference begins inside another. -/
theorem Denotes.noAmpersand {body : List Char} {c : Char} (denotes : Denotes plusSigns body c) :
    '&' ∉ body ++ [';'] := by
  have inBody : '&' ∉ body := denotes.not_mem (by decide) (by decide) (by decide)
  simpa using inBody

/-- What is no signed code and no reference without a sign is no reference. -/
theorem not_begins_of_unsigned (noUnsigned : ¬ Begins unsigned cs) (noSigned : ¬ BeginsSigned cs) :
    ¬ Begins plusSigns cs := by
  rintro ⟨body, c, behind, denotes, whole⟩
  by_cases plus : '+' ∈ body
  · exact noSigned ⟨body, c, behind, denotes, plus, whole⟩
  · exact noUnsigned ⟨body, c, behind, denotes_unsigned_iff.2 ⟨denotes, plus⟩, whole⟩

/-- A signed number stands at the front of a text or further on. -/
theorem holdsSigned_cons_iff {c : Char} {rest : List Char} :
    HoldsSigned (c :: rest) ↔ BeginsSigned (c :: rest) ∨ HoldsSigned rest := by
  simp only [HoldsSigned, List.suffix_cons_iff, or_and_right, exists_or, exists_eq_left]

/-- Signed codes begin with ampersands. -/
theorem holdsSigned_append_iff {front rest : List Char} (plain : '&' ∉ front) :
    HoldsSigned (front ++ rest) ↔ HoldsSigned rest := by
  induction front with
  | nil => rfl
  | cons c front ih =>
      rw [List.mem_cons, not_or] at plain
      have starts : ¬ BeginsSigned (c :: (front ++ rest)) := by
        rintro ⟨body, d, behind, -, -, whole⟩
        exact plain.1 (List.cons.inj whole).1.symm
      rw [List.cons_append, holdsSigned_cons_iff, ih plain.2, or_iff_right starts]

/-- Where no number is signed, decoding without signs gives the same. -/
theorem Decodes.of_noSigned (decodes : Decodes plusSigns cs text) (noSigned : ¬ HoldsSigned cs) :
    Decodes unsigned cs text := by
  induction decodes with
  | nil => exact .nil
  | copied noReference others ih =>
      rw [holdsSigned_cons_iff, not_or] at noSigned
      refine .copied ?_ (ih noSigned.2)
      rintro ⟨body, c, behind, denotes, whole⟩
      exact noReference ⟨body, c, behind, (denotes_unsigned_iff.1 denotes).1, whole⟩
  | @replaced body rest text c denotes others ih =>
      rw [holdsSigned_cons_iff, not_or] at noSigned
      have noPlus : '+' ∉ body := fun plus =>
        noSigned.1 ⟨body, c, rest, denotes, plus, rfl⟩
      have noneBehind : ¬ HoldsSigned rest := by
        rw [← holdsSigned_append_iff denotes.noAmpersand, List.append_assoc]
        exact noSigned.2
      exact .replaced (denotes_unsigned_iff.2 ⟨denotes, noPlus⟩) (ih noneBehind)

/-- What comes before the first reference stays as it is. -/
theorem decode_append {front : List Char} (plain : '&' ∉ front) (rest : List Char) :
    decode (front ++ rest) = front ++ decode rest := by
  induction front with
  | nil => rfl
  | cons c front ih =>
      rw [List.mem_cons, not_or] at plain
      rw [List.cons_append, decode_cons (Ne.symm plain.1), ih plain.2, List.cons_append]

/-- A text begins with one reference at most. -/
theorem not_beginsSigned {body : List Char} {c : Char} (denotes : Denotes unsigned body c)
    (rest : List Char) : ¬ BeginsSigned ('&' :: (body ++ ';' :: rest)) := by
  rintro ⟨other, d, behind, signed, plus, whole⟩
  obtain ⟨denotesPlus, noPlus⟩ := denotes_unsigned_iff.1 denotes
  have cut := denotesPlus.cutSemicolon?_eq rest
  rw [(List.cons.inj whole).2, signed.cutSemicolon?_eq behind] at cut
  obtain ⟨rfl, -⟩ := Prod.mk.inj (Option.some.inj cut)
  exact noPlus plus

/-- Signed codes, and nothing else, make a text shorter than its unsigned references do. -/
theorem Decodes.length_decode (decodes : Decodes unsigned cs text) :
    (decode cs).length ≤ text.length ∧
      (HoldsSigned cs → (decode cs).length < text.length) := by
  induction decodes with
  | nil =>
      refine ⟨by rw [decode.eq_1], ?_⟩
      rintro ⟨rest, isSuffix, body, c, behind, -, -, rfl⟩
      cases List.suffix_nil.1 isSuffix
  | @copied c rest text noReference others ih =>
      by_cases signed : BeginsSigned (c :: rest)
      · -- the signed code is replaced by one character, while the other text keeps all of it
        obtain ⟨body, d, behind, denotes, -, whole⟩ := signed
        obtain ⟨rfl, rfl⟩ := List.cons.inj whole
        have shorter := ih.1
        rw [← List.singleton_append, ← List.append_assoc, decode_append denotes.noAmpersand,
          List.length_append, List.length_append] at shorter
        rw [decode_reference (read?_eq_some_iff.2 ⟨body, denotes, rfl⟩)]
        simp only [List.length_cons, List.length_nil] at shorter ⊢
        omega
      · rw [holdsSigned_cons_iff, or_iff_right signed]
        rw [decode_cons_of_not_begins (not_begins_of_unsigned noReference signed),
          List.length_cons, List.length_cons]
        exact ⟨Nat.succ_le_succ ih.1, fun holds => Nat.succ_lt_succ (ih.2 holds)⟩
  | @replaced body rest text c denotes others ih =>
      have denotesPlus := (denotes_unsigned_iff.1 denotes).1
      have same : HoldsSigned (body ++ ';' :: rest) ↔ HoldsSigned rest := by
        rw [← List.singleton_append, ← List.append_assoc]
        exact holdsSigned_append_iff denotesPlus.noAmpersand
      rw [decode_reference (read?_eq_some_iff.2 ⟨body, denotesPlus, rfl⟩), holdsSigned_cons_iff,
        or_iff_right (not_beginsSigned denotes rest), same, List.length_cons, List.length_cons]
      exact ⟨Nat.succ_le_succ ih.1, fun holds => Nat.succ_lt_succ (ih.2 holds)⟩

/-- A text is decoded as its unsigned references say exactly if no signed code stands in it. -/
theorem decodes_unsigned_decode_iff : Decodes unsigned cs (decode cs) ↔ ¬ HoldsSigned cs :=
  ⟨fun decodes holds => Nat.lt_irrefl _ (decodes.length_decode.2 holds),
    (decodes_decode cs).of_noSigned⟩

end Reference

open Reference (Decodes HoldsSigned unsigned)

theorem toList_decodeReferences (text : String) :
    (decodeReferences text).toList = Reference.decode text.toList :=
  String.toList_ofList

/-- Decoding replaces the references of a text and copies all else, where the digits of a code may
have a plus sign in front.  So the text is decoded as the references without signs say exactly if
no reference in it has a sign. -/
theorem decodeReferences_replaces (text : String) :
    (∀ decoded : String, decodeReferences text = decoded ↔
        Decodes Text.plusSigns text.toList decoded.toList) ∧
      (Decodes unsigned text.toList (decodeReferences text).toList ↔
        ¬ HoldsSigned text.toList) := by
  refine ⟨fun decoded => ?_, ?_⟩
  · rw [← Reference.decode_eq_iff, ← toList_decodeReferences, String.toList_inj]
  · rw [toList_decodeReferences, Reference.decodes_unsigned_decode_iff]

/-- A code with a sign is replaced, although no reference begins there. -/
theorem signedCode_replaced :
    decodeReferences "&#+65;" = "A" ∧ ¬ Decodes unsigned "&#+65;".toList "A".toList := by
  have replaced : decodeReferences "&#+65;" = "A" := by decide +kernel
  have denotes : Reference.Denotes Text.plusSigns "#+65".toList 'A' :=
    @Reference.Denotes.code _ ['#'] ['+'] ['6', '5'] 10 'A'
      (by decide) (by decide) ⟨0, by decide⟩ (by decide)
  have holds : HoldsSigned "&#+65;".toList :=
    ⟨_, List.suffix_rfl, "#+65".toList, 'A', [], denotes, by decide, rfl⟩
  refine ⟨replaced, fun decodes => ?_⟩
  rw [← replaced, toList_decodeReferences, Reference.decodes_unsigned_decode_iff] at decodes
  exact decodes holds

end Markup
end Pagelet
