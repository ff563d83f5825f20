import Pagelet.Proofs.Style.Cutting
import Pagelet.Proofs.Style.Settings

/-!
# Blocks put together

Two blocks with a semicolon between them set what both set, the second one winning, unless the
first leaves a string or a bracket open.  An item without an exposed colon, without a name or a
value, or with a value that its property cannot use is malformed.  Exactly these items set
nothing, so they can be left out wherever they stand.
-/

namespace Pagelet
namespace Text

variable {cs : List Char}

theorem asciiLowercase_eq_nil_iff : asciiLowercase cs = [] ↔ cs = [] :=
  List.map_eq_nil_iff

theorem lowercase_eq_nil_iff : lowercase cs = [] ↔ cs = [] := by
  cases cs with
  | nil => exact Iff.rfl
  | cons c rest =>
      have written : LetterCase.lowerChar c ≠ [] := by
        unfold LetterCase.lowerChar
        split_ifs <;> exact List.cons_ne_nil _ _
      simp only [lowercase, LetterCase.lowerFrom]
      split_ifs <;> simp [written]

end Text

namespace Style

open Text (IsBlankText trim)

/-- The name that stands before a colon, in small letters. -/
def nameText (cs : List Char) : String :=
  String.ofList (Text.asciiLowercase (trim cs))

/-- The value that stands behind a colon, in small letters and with single spaces. -/
def valueText (cs : List Char) : String :=
  String.ofList (Text.lowercase (Text.collapse cs))

/-- The item cannot be used. -/
inductive Malformed (item : List Char) : Prop
  /-- Every colon stands in a string or in brackets. -/
  | noColon (unexposed : Unexposed ':' {} item)
  /-- Nothing stands before the colon. -/
  | noName {name value : List Char} (cut : Cut ':' item name value) (blank : IsBlankText name)
  /-- Nothing stands behind the colon. -/
  | noValue {name value : List Char} (cut : Cut ':' item name value) (blank : IsBlankText value)
  /-- The property has no use for the value. -/
  | unusable {name value : List Char} (cut : Cut ':' item name value)
      (unread : (Property.ofName (nameText name)).read? (valueText value) = none)

/-- The item gives a value to a name. -/
inductive Gives (item : List Char) : Setting → Prop
  /-- The value stands behind the first exposed colon, and the property can use it. -/
  | intro {name value : List Char} {read : (Property.ofName (nameText name)).Value}
      (cut : Cut ':' item name value) (named : ¬ IsBlankText name) (valued : ¬ IsBlankText value)
      (usable : (Property.ofName (nameText name)).read? (valueText value) = some read) :
      Gives item ⟨nameText name, read⟩

variable {separator : Char} {item name value cs front back lead tail : List Char}

/-- Two closed texts are closed together. -/
theorem IsClosed.append (first : IsClosed front) (second : IsClosed back) :
    IsClosed (front ++ back) := by
  rw [IsClosed, Cover.after, List.foldl_append]
  exact (congrArg (Cover.after · back) first).trans second

theorem isClosed_of_isBlankText (blank : IsBlankText cs) : IsClosed cs :=
  Cover.after_of_isBlankText rfl blank

theorem Unexposed.append (closed : IsClosed front) (first : Unexposed separator {} front)
    (second : Unexposed separator {} back) : Unexposed separator {} (front ++ back) :=
  AtEvery.append first ((show front.foldl Cover.next {} = {} from closed).symm ▸ second)

section Blanks

-- the separator is no blank
variable (visible : Text.isBlank separator = false)
include visible

theorem unexposed_of_isBlankText {cover : Cover} (blank : IsBlankText cs) :
    Unexposed separator cover cs :=
  .of_not_mem (Text.not_mem_of_isBlankText blank visible)

/-- Blanks around a text expose no separator. -/
theorem Unexposed.spaced (leadBlank : IsBlankText lead) (tailBlank : IsBlankText tail)
    (unexposed : Unexposed separator {} cs) : Unexposed separator {} (lead ++ cs ++ tail) :=
  AtEvery.append
    ((unexposed_of_isBlankText visible leadBlank).append (isClosed_of_isBlankText leadBlank)
      unexposed)
    (unexposed_of_isBlankText visible tailBlank)

/-- Blanks around a text belong to what a cut leaves on either side. -/
theorem Cut.spaced (leadBlank : IsBlankText lead) (cut : Cut separator cs front back)
    (tail : List Char) : Cut separator (lead ++ cs ++ tail) (lead ++ front) (back ++ tail) where
  whole := by simp [cut.whole]
  unexposed := (unexposed_of_isBlankText visible leadBlank).append
    (isClosed_of_isBlankText leadBlank) cut.unexposed
  closed := (isClosed_of_isBlankText leadBlank).append cut.closed

end Blanks

/-- An item and what trimming leaves of it are cut alike, but for blanks, or not at all. -/
theorem cut_trim_or_unexposed (item : List Char) :
    (∃ name value front back, Cut ':' item name value ∧ Cut ':' (trim item) front back ∧
      trim front = trim name ∧ Text.collapse back = Text.collapse value) ∨
      (Unexposed ':' {} item ∧ Unexposed ':' {} (trim item)) := by
  obtain ⟨lead, tail, leadBlank, tailBlank, whole⟩ := Text.exists_eq_append_trim item
  rcases exists_cut_or_unexposed ':' (trim item) with ⟨front, back, cut⟩ | unexposed
  · have outer := cut.spaced (by decide) leadBlank tail
    rw [← whole] at outer
    refine .inl ⟨_, _, front, back, outer, cut, ?_, ?_⟩
    · simpa using (Text.trim_append leadBlank Text.isBlankText_nil front).symm
    · simpa using (Text.collapse_spaced Text.isBlankText_nil tailBlank back).symm
  · have outer := unexposed.spaced (by decide) leadBlank tailBlank
    rw [← whole] at outer
    exact .inr ⟨outer, unexposed⟩

/-- An item without an exposed colon declares nothing. -/
theorem Unexposed.declaration?_eq (unexposed : Unexposed ':' {} item) :
    declaration? item = none := by
  obtain ⟨_, _, _, _, cut, -, -, -⟩ | ⟨-, trimmed⟩ := cut_trim_or_unexposed item
  · exact absurd unexposed cut.not_unexposed
  · rw [declaration?, trimmed.cutExposed?_eq (by decide)]
    rfl

/-- An item declares the value behind its first exposed colon under the name in front of it. -/
theorem Cut.declaration?_eq (cut : Cut ':' item name value) :
    declaration? item =
      if IsBlankText name ∨ IsBlankText value then none
      else some (nameText name, valueText value) := by
  obtain ⟨_, _, front, back, outer, inner, sameName, sameValue⟩ | ⟨unexposed, -⟩ :=
    cut_trim_or_unexposed item
  · have found := cut.cutExposed?_eq (by decide)
    rw [outer.cutExposed?_eq (by decide)] at found
    obtain ⟨rfl, rfl⟩ := Prod.mk.inj (Option.some.inj found)
    rw [declaration?, inner.cutExposed?_eq (by decide)]
    simp only [Option.bind_eq_bind, Option.bind_some, sameName, sameValue]
    simp only [Bool.or_eq_true, List.isEmpty_iff, Text.asciiLowercase_eq_nil_iff,
      Text.trim_eq_nil_iff, Text.lowercase_eq_nil_iff, Text.collapse_eq_nil_iff]
    rfl
  · exact absurd unexposed cut.not_unexposed

theorem Unexposed.ofItem?_eq (unexposed : Unexposed ':' {} item) :
    Setting.ofItem? item = none := by
  rw [Setting.ofItem?, unexposed.declaration?_eq]
  rfl

/-- An item gives the value that its property reads. -/
theorem Cut.ofItem?_eq (cut : Cut ':' item name value) :
    Setting.ofItem? item =
      if IsBlankText name ∨ IsBlankText value then none
      else ((Property.ofName (nameText name)).read? (valueText value)).map (Setting.mk _) := by
  rw [Setting.ofItem?, cut.declaration?_eq]
  split_ifs <;> rfl

/-- An item sets what it gives. -/
theorem ofItem?_eq_some_iff {setting : Setting} :
    Setting.ofItem? item = some setting ↔ Gives item setting := by
  constructor
  · intro given
    obtain ⟨front, back, cut⟩ | unexposed := exists_cut_or_unexposed ':' item
    · rw [cut.ofItem?_eq] at given
      split_ifs at given with blank
      obtain ⟨read, usable, rfl⟩ := Option.map_eq_some_iff.1 given
      rw [not_or] at blank
      exact ⟨cut, blank.1, blank.2, usable⟩
    · rw [unexposed.ofItem?_eq] at given
      cases given
  · rintro ⟨cut, named, valued, usable⟩
    rw [cut.ofItem?_eq, if_neg (not_or.2 ⟨named, valued⟩), usable]
    rfl

/-- The malformed items set nothing, and no others. -/
theorem ofItem?_eq_none_iff : Setting.ofItem? item = none ↔ Malformed item := by
  constructor
  · intro missing
    obtain ⟨front, back, cut⟩ | unexposed := exists_cut_or_unexposed ':' item
    · rw [cut.ofItem?_eq] at missing
      split_ifs at missing with blank
      · exact blank.elim (.noName cut) (.noValue cut)
      · exact .unusable cut (Option.map_eq_none_iff.1 missing)
    · exact .noColon unexposed
  · rintro (unexposed | ⟨cut, blank⟩ | ⟨cut, blank⟩ | ⟨cut, unread⟩)
    · exact unexposed.ofItem?_eq
    · rw [cut.ofItem?_eq, if_pos (.inl blank)]
    · rw [cut.ofItem?_eq, if_pos (.inr blank)]
    · rw [cut.ofItem?_eq, unread]
      exact ite_self none

/-- A closed list and another one behind a semicolon give their settings in order. -/
theorem settings_append (closed : IsClosed front) (back : List Char) :
    settings (front ++ ';' :: back) = settings front ++ settings back := by
  rw [settings, splitExposed_append_cons (by decide) closed, List.filterMap_append]
  rfl

/-- Without a malformed item the settings of a block are the same. -/
theorem settings_erase {block : List Char} {before behind : List (List Char)}
    (items : splitExposed ';' block = before ++ item :: behind) (malformed : Malformed item) :
    settings ([';'].intercalate (before ++ behind)) = settings block := by
  have nothing := ofItem?_eq_none_iff.2 malformed
  have kept : settings block = (before ++ behind).filterMap Setting.ofItem? := by
    rw [settings, items, List.filterMap_append, List.filterMap_cons_none nothing,
      List.filterMap_append]
  rw [kept]
  by_cases alone : before ++ behind = []
  · -- the empty text still is an item, which has no colon
    have empty : splitExposed ';' [] = [[]] := rfl
    rw [alone, List.intercalate_nil, settings, empty,
      List.filterMap_cons_none (Unexposed.ofItem?_eq atEvery_nil)]
  · have parts : Parts ';' (splitExposed ';' block) := (parts_splitExposed (by decide) block).1
    rw [items] at parts
    rw [settings, (parts.erase alone).splitExposed_intercalate (by decide)]

namespace Properties

/-- Layers may be merged in two goes. -/
theorem mergeAll_append (first second : List Properties) :
    mergeAll (first ++ second) = (mergeAll first).merge (mergeAll second) :=
  ext_get? fun property => by
    rw [get?_merge, get?_mergeAll, get?_mergeAll, get?_mergeAll, List.reverse_append,
      List.findSome?_append]

/-- A block that leaves nothing open and a second one set what both set. -/
theorem ofBlock_append (closed : IsClosed front) (back : List Char) :
    ofBlock (front ++ ';' :: back) = (ofBlock front).merge (ofBlock back) := by
  rw [ofBlock_eq_mergeAll, settings_append closed, List.map_append, mergeAll_append,
    ← ofBlock_eq_mergeAll, ← ofBlock_eq_mergeAll]

/-- Blocks are merged when they are written one behind the other, unless the first leaves a
string or a bracket open.  The items of a block are its parts at exposed semicolons.  A malformed
item can be left out wherever it stands, and an item that is not malformed gives a value to a
name.  The properties that are understood are never kept by name.  As many properties are set as
names are given values, and a name has the value that was given last. -/
theorem parse_composes :
    (∀ first second : String, IsClosed first.toList →
      parse (first ++ ";" ++ second) = (parse first).merge (parse second)) ∧
    (∀ block, Parts ';' (splitExposed ';' block) ∧
      [';'].intercalate (splitExposed ';' block) = block) ∧
    (∀ (block : String) (before behind : List (List Char)) (item : List Char),
      splitExposed ';' block.toList = before ++ item :: behind → Malformed item →
      parse block = parse (String.ofList ([';'].intercalate (before ++ behind)))) ∧
    (∀ item, Setting.ofItem? item = none ↔ Malformed item) ∧
    (∀ item setting, Setting.ofItem? item = some setting ↔ Gives item setting) ∧
    (∀ block, ∀ name ∈ understood, (parse block).other? name = none) ∧
    (∀ block, (parse block).count =
      ((settings block.toList).map Setting.name).dedup.length) ∧
    ∀ block name, (parse block).get? (.ofName name) =
      (settings block.toList).reverse.findSome? (·.value? name) := by
  refine ⟨fun first second closed => ?_, parts_splitExposed (by decide),
    fun block before behind item items malformed => ?_, fun item => ofItem?_eq_none_iff,
    fun item setting => ofItem?_eq_some_iff,
    fun block name known => other?_ofBlock known block.toList,
    fun block => count_ofBlock block.toList, fun block name => get?_ofBlock block.toList name⟩
  · have joined : (first ++ ";" ++ second).toList = first.toList ++ ';' :: second.toList := by
      simp
    rw [parse, joined]
    exact ofBlock_append closed second.toList
  · rw [parse, parse, String.toList_ofList, ofBlock_eq_mergeAll, ofBlock_eq_mergeAll,
      settings_erase items malformed]

/-- A semicolon in a string ends no item, and a size without a number is left out. -/
theorem parse_composes_quoted :
    IsClosed "content: \";\"; font-size: big".toList ∧
      splitExposed ';' "content: \";\"; font-size: big".toList =
        ["content: \";\"".toList, " font-size: big".toList] ∧
      Malformed " font-size: big".toList ∧
      parse "content: \";\"; font-size: big" = parse "content: \";\"" ∧
      parse ("content: \";\"; font-size: big" ++ ";" ++ "color: red") =
        (parse "content: \";\"").merge (parse "color: red") := by
  have closed : IsClosed "content: \";\"; font-size: big".toList := by decide
  have items : splitExposed ';' "content: \";\"; font-size: big".toList =
      ["content: \";\"".toList] ++ " font-size: big".toList :: [] := by decide
  have cut : Cut ':' " font-size: big".toList " font-size".toList " big".toList :=
    ⟨by decide, by decide, by decide⟩
  have malformed : Malformed " font-size: big".toList := .unusable cut (by decide)
  have dropped := parse_composes.2.2.1 _ _ _ _ items malformed
  rw [List.append_nil, List.intercalate_singleton, String.ofList_toList] at dropped
  refine ⟨closed, items, malformed, dropped, ?_⟩
  rw [← dropped]
  exact parse_composes.1 _ _ closed

end Properties

end Style
end Pagelet
