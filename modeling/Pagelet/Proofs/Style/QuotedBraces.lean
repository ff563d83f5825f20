import Pagelet.Proofs.Style.Accumulation

/-!
# Braces in quoted strings

A block ends at the first closing brace outside quotes, so the closing braces in its strings
belong to its declarations.  Opening braces are looked for in strings as well, and a block that
holds one is passed over.
-/

namespace Pagelet
namespace Style
namespace RuleTable

/-- A sheet gives every selector what it had, merged in order with the properties of the blocks
that set some for it and hold no opening brace. -/
theorem rule?_addSheet_enclosed {layout : Layout} (blank : layout.IsBlank) {printed : List Block}
    (enclosed : ∀ block ∈ printed, block.Enclosed) (table : RuleTable) (selector : String) :
    (table.addSheet (layout.sheet printed)).1.rule? selector =
      (printed.filter fun block => block.sets selector && !block.holdsOpening).foldl
        (fun known block => extend known block.properties) (table.rule? selector) := by
  have added : (table.addSheet (layout.sheet printed)).1 =
      table.addAll ((printed.filter (!·.holdsOpening)).flatMap Block.entries) := by
    rw [addSheet, Layout.sheetEntries_enclosed blank enclosed]
    rfl
  rw [added, rule?_addAll_flatMap, List.filter_filter]

/-- A block alone gives its properties to its selectors. -/
theorem rule?_ofSheet_single {layout : Layout} (blank : layout.IsBlank) {block : Block}
    (enclosed : block.Enclosed) (selector : String) :
    (ofSheet (layout.sheet [block])).rule? selector =
      if block.sets selector && !block.holdsOpening then some block.properties else none := by
  have known := rule?_addSheet_enclosed blank (List.forall_mem_singleton.2 enclosed) {} selector
  have nothing : rule? {} selector = none := Std.ExtTreeMap.getElem?_empty
  rw [ofSheet, known, nothing, List.filter_singleton]
  cases block.sets selector && !block.holdsOpening with
  | true => exact congrArg some (Properties.empty_merge block.properties)
  | false => rfl

/-- A block whose quotes are closed and whose closing braces are quoted gives its selector the
properties that its declarations set, and no other selector any, if no opening brace stands in it.
One that holds an opening brace, quoted or not, sets nothing.  So the selector has the properties
of the declarations exactly if there are none of these where an opening brace is. -/
theorem rule?_ofSheet_enclosed {layout : Layout} (blank : layout.IsBlank) {selector body : String}
    (isSelector : IsSelector selector) (enclosed : IsEnclosed body) :
    let read := (ofSheet (layout.sheet [⟨[selector], body⟩])).rule?
    let properties := Properties.parse body
    (∀ other, read other =
        if other = selector ∧ '{' ∉ body.toList ∧ properties.isEmpty = false then some properties
        else none) ∧
      (read selector = (if properties.isEmpty then none else some properties) ↔
        ('{' ∈ body.toList → properties.isEmpty = true)) := by
  intro read properties
  have written : Block.Enclosed ⟨[selector], body⟩ :=
    ⟨List.forall_mem_singleton.2 isSelector, enclosed⟩
  have known (other : String) : read other =
      if other = selector ∧ '{' ∉ body.toList ∧ properties.isEmpty = false then some properties
      else none := by
    refine (rule?_ofSheet_single blank written other).trans (if_congr ?_ rfl rfl)
    simp [Block.sets, Block.isUsable, Block.holdsOpening, Block.properties, properties, and_comm,
      and_left_comm]
  refine ⟨known, ?_⟩
  rw [known selector]
  by_cases opening : '{' ∈ body.toList <;> cases properties.isEmpty <;> simp [opening]

/-- A declaration with a closing brace in its string. -/
def closingNote : String := "content: \"\x7d\""

theorem rule?_ofSheet_enclosed_closingNote :
    (({} : Layout).IsBlank ∧ IsSelector "p" ∧ IsEnclosed closingNote) ∧
      (∀ other, (ofSheet (({} : Layout).sheet [⟨["p"], closingNote⟩])).rule? other =
        if other = "p" ∧ '{' ∉ closingNote.toList ∧
            (Properties.parse closingNote).isEmpty = false then
          some (Properties.parse closingNote)
        else none) ∧
      (Properties.parse closingNote).other? "content" = some "\"\x7d\"" := by
  have blank : ({} : Layout).IsBlank := by decide
  have isSelector : IsSelector "p" := by decide +kernel
  have enclosed : IsEnclosed closingNote := by decide +kernel
  have value : (Properties.parse closingNote).other? "content" = some "\"\x7d\"" := by
    decide +kernel
  exact ⟨⟨blank, isSelector, enclosed⟩, (rule?_ofSheet_enclosed blank isSelector enclosed).1,
    value⟩

/-- A declaration with an opening brace in its string. -/
def openingNote : String := "content: \"\x7b\""

/-- A block is lost with the brace in its string. -/
theorem openingNote_hides :
    (IsSelector "p" ∧ IsEnclosed openingNote ∧ Covered '{' .outside openingNote.toList) ∧
      Layout.sheet { behindBrace := [] } [⟨["p"], openingNote⟩] =
        "p \x7b content: \"\x7b\" \x7d" ∧
      (ofSheet (Layout.sheet { behindBrace := [] } [⟨["p"], openingNote⟩])).rule? "p" = none ∧
      (Properties.parse openingNote).other? "content" = some "\"\x7b\"" := by
  decide +kernel

end RuleTable

end Style
end Pagelet
