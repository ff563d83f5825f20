import Pagelet.Proofs.Style.Contributions
import Pagelet.Proofs.Style.Settings

/-!
# The rules that a start tag consults

Resolving the style of a start tag consults a selector if the rule of this selector can make a
difference.  The consulted selectors are the name of the tag, its first class, and what its first
`id` attribute says between blanks.
-/

namespace Pagelet
namespace Style

open Markup (Attributes)

variable {tag : String} {attributes : Attributes} {selector : String}

/-- The style of the start tag depends on the rule of the selector: there are two rule tables
that differ in this rule alone and resolve the tag in different ways. -/
def Consults (tag : String) (attributes : Attributes) (selector : String) : Prop :=
  ∃ first second : RuleTable,
    (∀ other, other ≠ selector → first.rule? other = second.rule? other) ∧
      first.resolve tag attributes ≠ second.resolve tag attributes

/-- A property that no declaration can set: the name of an understood one, kept by name. -/
def unsettable : Property :=
  .other "color"

theorem get?_inlineProperties? {properties : Properties}
    (own : inlineProperties? attributes = some properties) :
    properties.get? unsettable = none := by
  obtain ⟨block, -, rfl⟩ := Option.map_eq_some_iff.1 own
  exact Properties.other?_ofBlock (by decide) block.toList

/-- Whether a property is set that no declaration can set is up to the rules alone. -/
theorem isSome_get?_resolve (table : RuleTable) :
    ((table.resolve tag attributes).get? unsettable).isSome ↔
      ∃ selector ∈ tagSelectors tag attributes, ∃ properties,
        table.rule? selector = some properties ∧ (properties.get? unsettable).isSome := by
  rw [RuleTable.resolve, RuleTable.layers_eq, Properties.get?_mergeAll, List.findSome?_isSome_iff]
  simp only [List.mem_reverse, List.mem_append, List.mem_filterMap, Option.mem_toList]
  constructor
  · rintro ⟨properties, ⟨selector, member, found⟩ | own, isSet⟩
    · exact ⟨selector, member, properties, found, isSet⟩
    · rw [get?_inlineProperties? own] at isSet
      cases isSet
  · rintro ⟨selector, member, properties, found, isSet⟩
    exact ⟨properties, .inl ⟨selector, member, found⟩, isSet⟩

/-- The selectors that a start tag consults are those under which it is looked up. -/
theorem consults_iff :
    Consults tag attributes selector ↔ selector ∈ tagSelectors tag attributes := by
  constructor
  · rintro ⟨first, second, same, differ⟩
    by_contra apart
    apply differ
    have sameRules : (tagSelectors tag attributes).filterMap first.rule? =
        (tagSelectors tag attributes).filterMap second.rule? := by
      apply List.filterMap_congr
      rintro other member
      exact same other fun here => apart (here ▸ member)
    rw [RuleTable.resolve, RuleTable.resolve, RuleTable.layers_eq, RuleTable.layers_eq, sameRules]
  · intro member
    let marked := Properties.only unsettable (some "")
    have isMarked : (marked.get? unsettable).isSome = true := by
      rw [Properties.get?_only]
      rfl
    have empty (other : String) : ({} : RuleTable).rule? other = none :=
      Std.ExtTreeMap.getElem?_empty
    refine ⟨{}, ({} : RuleTable).add selector marked, fun other apart => ?_, fun same => ?_⟩
    · rw [RuleTable.rule?_add, if_neg apart.symm]
    · have known : (({} : RuleTable).add selector marked).rule? selector = some marked := by
        rw [RuleTable.rule?_add, if_pos rfl, empty, Option.getD_none, Properties.empty_merge]
      have isSet := (isSome_get?_resolve _).2 ⟨selector, member, marked, known, isMarked⟩
      rw [← same, isSome_get?_resolve] at isSet
      obtain ⟨other, -, properties, found, -⟩ := isSet
      rw [empty] at found
      cases found

theorem ofList_hash_eq_iff {name : List Char} {id : String} :
    String.ofList ('#' :: name) = "#" ++ id ↔ name = id.toList := by
  rw [← String.toList_inj, String.toList_ofList, String.toList_append]
  exact List.cons_inj_right '#'

/-- The first `id` attribute says this between blanks, and says something. -/
def SaysId (attributes : Attributes) (id : String) : Prop :=
  id ≠ "" ∧ ∃ value, attributes.get? "id" = some value ∧ Text.trim value.toList = id.toList

/-- The selector of an id is consulted just for the id that the attributes say. -/
theorem idSelector?_eq_some_iff {id : String} :
    idSelector? attributes = some ("#" ++ id) ↔ SaysId attributes id := by
  cases found : attributes.get? "id" with
  | none => simp [idSelector?, SaysId, found]
  | some value =>
      cases name : Text.trim value.toList with
      | nil =>
          have none : idSelector? attributes = none := by simp [idSelector?, found, name]
          rw [none]
          constructor
          · rintro ⟨⟩
          · rintro ⟨notEmpty, other, given, same⟩
            cases found.symm.trans given
            exact absurd (String.toList_eq_nil_iff.1 (same.symm.trans name)) notEmpty
      | cons c rest =>
          have some_iff : idSelector? attributes = some ("#" ++ id) ↔ c :: rest = id.toList := by
            rw [← ofList_hash_eq_iff]
            simp [idSelector?, found, name]
          rw [some_iff]
          constructor
          · intro same
            refine ⟨?_, value, found, name.trans same⟩
            rintro rfl
            cases same
          · rintro ⟨-, other, given, same⟩
            cases found.symm.trans given
            exact name.symm.trans same

/-- A start tag whose name is not written like an id consults the rule of at most one id: what its
first `id` attribute says, without the blanks at the ends. -/
theorem consults_id_iff {id : String} (plain : tag.toList.head? ≠ some '#') :
    Consults tag attributes ("#" ++ id) ↔ SaysId attributes id := by
  rw [consults_iff, ← idSelector?_eq_some_iff, tagSelectors]
  have notTag : "#" ++ id ≠ tag := by
    rintro rfl
    exact plain (by simp)
  have notClass : classSelector? attributes ≠ some ("#" ++ id) := by
    intro same
    obtain ⟨value, -, named⟩ := Option.bind_eq_some_iff.1 same
    obtain ⟨name, -, spelled⟩ := Option.bind_eq_some_iff.1 named
    have spelling := congrArg String.toList (Option.some.inj spelled)
    simp at spelling
  simp [notTag, notClass]

end Style
end Pagelet
