import Mathlib
import Pagelet.Page.Assembly
import Pagelet.Proofs.Style.Consulted

/-!
# Ids of elements and rules of ids

The document names an element by its first `id` attribute that is not empty, as it is written.
The cascade looks at the first `id` attribute alone, and leaves the blanks at its ends out.  So
an element without an id has the rule of no id, but one with an id has the rule of this id only if
the first attribute gives it, without blanks at its ends.
-/

namespace Pagelet

open Markup (Attributes Token)
open Style (Consults)

namespace Markup
namespace Token

variable {c : Char} {cs rest : List Char} {name : String} {attributes : Attributes}
  {selfClosing : Bool}

theorem start_not_mem_readText : start name attributes selfClosing ∉ (readText c rest).1 := by
  simp [readText]

theorem start_not_mem_readRaw (element : String) :
    start name attributes selfClosing ∉ (readRaw element cs).1 := by
  have plain (body : List Char) : start name attributes selfClosing ∉ rawText body := by
    cases body <;> simp [rawText]
  unfold readRaw
  split
  · simp [plain]
  · exact plain cs

/-- A start tag among the tokens of an element is the tag that begins the element. -/
theorem exists_readStartTag?_of_mem (member :
    start name attributes selfClosing ∈ ((readElement? cs).getD (readText c cs)).1) :
    ∃ tag, readStartTag? cs = some (name, tag) := by
  cases opened : readStartTag? cs with
  | none =>
      have unread : readElement? cs = none := by rw [readElement?, opened]; rfl
      rw [unread, Option.getD_none] at member
      exact absurd member start_not_mem_readText
  | some parts =>
      obtain ⟨element, tag⟩ := parts
      rw [readElement?, opened] at member
      simp only [Option.bind_eq_bind, Option.bind_some] at member
      split at member
      · rw [Option.getD_some] at member
        rcases List.mem_cons.1 member with same | inside
        · cases same
          exact ⟨tag, rfl⟩
        · exact absurd inside (start_not_mem_readRaw element)
      · rw [Option.getD_some] at member
        cases List.mem_singleton.1 member
        exact ⟨tag, rfl⟩

/-- A start tag among the tokens of a step was read behind its opening bracket. -/
theorem exists_readStartTag?_of_mem_next
    (member : start name attributes selfClosing ∈ (next c rest).1) :
    ∃ tag, readStartTag? rest = some (name, tag) := by
  unfold next at member
  split at member
  · split at member
    · cases member
    · cases member
    · cases member
    · split at member
      · cases List.mem_singleton.1 member
      · exact absurd member start_not_mem_readText
    · exact exists_readStartTag?_of_mem member
  · exact absurd member start_not_mem_readText

/-- The name of a start tag begins with a letter. -/
theorem head?_of_readStartTag? {tag : TagEnd} (read : readStartTag? cs = some (name, tag)) :
    name.toList.head? ≠ some '#' := by
  cases cs with
  | nil => cases read
  | cons c more =>
      rw [readStartTag?] at read
      obtain ⟨letter, read⟩ := Option.ite_none_right_eq_some.1 read
      obtain ⟨⟨spelled, rest⟩, named, read⟩ := Option.bind_eq_some_iff.1 read
      obtain ⟨inner, -, same⟩ := Option.bind_eq_some_iff.1 read
      obtain ⟨rfl, -⟩ := Prod.mk.inj (Option.some.inj same)
      have inName : isNameChar c = true := by simp [isNameChar, Char.isAlphanum, letter]
      have small : c.toLower.isLower = true := (Char.isLower_toLower_eq_isAlpha c).trans letter
      rw [readName?, List.takeWhile_cons_of_pos inName] at named
      obtain ⟨rfl, -⟩ := Prod.mk.inj (Option.some.inj named)
      intro hash
      have first : c.toLower = '#' := by simpa using hash
      rw [first] at small
      cases small

/-- No start tag of a page has a name that is written like an id. -/
theorem head?_of_start_mem_scan (member : start name attributes selfClosing ∈ scan cs) :
    name.toList.head? ≠ some '#' := by
  fun_induction scan cs with
  | case1 => cases member
  | case2 c rest step ih =>
      rcases List.mem_append.1 member with here | later
      · obtain ⟨tag, read⟩ := exists_readStartTag?_of_mem_next here
        exact head?_of_readStartTag? read
      · exact ih later

end Token
end Markup

namespace Page
namespace Assembly

variable {attributes : Attributes} {id : String}

/-- The first id that is not empty names the element. -/
theorem explicitId?_cons (name value : String) (rest : Attributes) :
    explicitId? ((name, value) :: rest) =
      if name = "id" ∧ value ≠ "" then some value else explicitId? rest := by
  by_cases isId : name = "id" <;> by_cases empty : value = "" <;>
    simp [explicitId?, isId, empty]

/-- The first id at all is the one that is looked up. -/
theorem get?_id_cons (name value : String) (rest : Attributes) :
    Attributes.get? ((name, value) :: rest) "id" =
      if name = "id" then some value else rest.get? "id" := by
  rw [Attributes.get?, List.lookup_cons]
  by_cases isId : name = "id"
  · simp [isId]
  · have other : ("id" == name) = false := beq_eq_false_iff_ne.2 (Ne.symm isId)
    rw [other, if_neg isId]
    rfl

/-- The first `id` attribute is missing or empty, or gives the id of the element. -/
theorem first_id_cases (attributes : Attributes) :
    (attributes.get? "id" = none ∧ explicitId? attributes = none) ∨
      attributes.get? "id" = some "" ∨
        ∃ id, id ≠ "" ∧ attributes.get? "id" = some id ∧ explicitId? attributes = some id := by
  induction attributes with
  | nil => exact .inl ⟨rfl, rfl⟩
  | cons entry rest ih =>
      obtain ⟨name, value⟩ := entry
      rw [get?_id_cons, explicitId?_cons]
      by_cases isId : name = "id"
      · by_cases empty : value = ""
        · exact .inr (.inl (by rw [if_pos isId, empty]))
        · exact .inr (.inr ⟨value, empty, if_pos isId, if_pos ⟨isId, empty⟩⟩)
      · rw [if_neg isId, if_neg fun both => isId both.1]
        exact ih

/-- An element is never named by an empty id. -/
theorem ne_empty_of_explicitId? (given : explicitId? attributes = some id) : id ≠ "" := by
  induction attributes with
  | nil => cases given
  | cons entry rest ih =>
      obtain ⟨name, value⟩ := entry
      rw [explicitId?_cons] at given
      split at given
      · next found =>
        cases given
        exact found.2
      · exact ih given

section Rules

variable {name : String} (plain : name.toList.head? ≠ some '#')

include plain

/-- An element without an id has the rule of no id. -/
theorem not_consults_of_generated (generated : explicitId? attributes = none) (id : String) :
    ¬ Consults name attributes ("#" ++ id) := by
  rw [Style.consults_id_iff plain]
  rintro ⟨notEmpty, value, found, trimmed⟩
  rcases first_id_cases attributes with ⟨missing, -⟩ | empty | ⟨given, -, -, explicit⟩
  · rw [missing] at found
    cases found
  · cases empty.symm.trans found
    exact notEmpty (String.toList_eq_nil_iff.1 trimmed.symm)
  · cases generated.symm.trans explicit

/-- An element with an id has the rule of this id, and of no other one, if the first `id` attribute
gives it and there are no blanks at its ends. -/
theorem consults_iff_of_explicit (explicit : explicitId? attributes = some id) :
    (∀ other, Consults name attributes ("#" ++ other) ↔ other = id) ↔
      attributes.get? "id" = some id ∧ Text.trim id.toList = id.toList := by
  have notEmpty := ne_empty_of_explicitId? explicit
  constructor
  · intro only
    obtain ⟨-, value, found, trimmed⟩ := (Style.consults_id_iff plain).1 ((only id).2 rfl)
    rcases first_id_cases attributes with ⟨missing, -⟩ | empty | ⟨given, -, first, also⟩
    · cases missing.symm.trans found
    · cases empty.symm.trans found
      exact absurd (String.toList_eq_nil_iff.1 trimmed.symm) notEmpty
    · cases first.symm.trans found
      cases also.symm.trans explicit
      exact ⟨first, trimmed⟩
  · rintro ⟨first, trimmed⟩ other
    rw [Style.consults_id_iff plain]
    constructor
    · rintro ⟨-, value, found, same⟩
      cases first.symm.trans found
      exact String.toList_inj.1 (same.symm.trans trimmed)
    · rintro rfl
      exact ⟨notEmpty, other, first, trimmed⟩

/-- A start tag whose name is not written like an id adds an element and a style.  If the element
is numbered, its style depends on the rule of no id.  If it has an id, its style depends on the
rule of this id, and of no other one, just if the first `id` attribute of the tag gives the id
and there are no blanks at its ends. -/
theorem openElement_rules_of_id (assembly : Assembly) (attributes : Attributes)
    (selfClosing : Bool) :
    let opened := assembly.openElement name attributes selfClosing
    opened.styles = assembly.styles.push (assembly.rules.resolve name attributes) ∧
      ∃ element, opened.document.elements = assembly.document.elements ++ [element] ∧
        (∀ number, element.id = .generated number →
          ∀ id, ¬ Consults name attributes ("#" ++ id)) ∧
        ∀ id, element.id = .explicit id →
          ((∀ other, Consults name attributes ("#" ++ other) ↔ other = id) ↔
            attributes.get? "id" = some id ∧ Text.trim id.toList = id.toList) := by
  refine ⟨rfl, _, rfl, ?_, ?_⟩
  · intro number numbered
    cases given : explicitId? attributes with
    | none => exact not_consults_of_generated plain given
    | some id => simp [Document.realize, Document.nextId, given] at numbered
  · intro id named
    cases given : explicitId? attributes with
    | none => simp [Document.realize, Document.nextId, given] at named
    | some own =>
        obtain rfl : own = id := by simpa [Document.realize, Document.nextId, given] using named
        exact consults_iff_of_explicit plain given

end Rules

theorem openElement_rules_of_id_plain :
    "p".toList.head? ≠ some '#' ∧
      ∀ other, Consults "p" [("id", "x")] ("#" ++ other) ↔ other = "x" := by
  have plain : "p".toList.head? ≠ some '#' := by decide
  obtain ⟨-, element, added, -, explicit⟩ :=
    openElement_rules_of_id plain {} [("id", "x")] false
  obtain rfl := List.singleton_inj.1 added
  exact ⟨plain, (explicit "x" rfl).2 ⟨rfl, by decide⟩⟩

/-- Two `id` attributes, of which the first is empty. -/
def emptyFirst : Attributes :=
  [("id", ""), ("id", "x")]

/-- The element is found by the second `id` attribute, but its style is looked up by the first
one, so the rule of its id leaves it as it is. -/
theorem emptyFirst_unruled :
    (({} : Assembly).openElement "p" emptyFirst false).document.elements.map (·.id) =
        [.explicit "x"] ∧
      ¬ Consults "p" emptyFirst "#x" ∧
      ((Style.RuleTable.ofSheet "#x\x7bcolor:red\x7d").resolve "p" emptyFirst).color = none := by
  refine ⟨by decide +kernel, fun consults => ?_, by decide +kernel⟩
  rw [Style.consults_iff] at consults
  revert consults
  decide +kernel

end Assembly
end Page
end Pagelet
