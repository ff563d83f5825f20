import Pagelet.Proofs.Style.Printing

/-!
# Rules that accumulate

What a rule table knows about a selector in the end is what it knew before, merged in order
with the blocks that name the selector.  How the blocks are spread over sheets does not matter,
and blocks that set nothing leave no trace.
-/

namespace Pagelet
namespace Style

theorem Properties.merge_self (properties : Properties) :
    properties.merge properties = properties := by
  cases properties
  simp only [merge, Option.or_self, mk.injEq, true_and]
  exact Std.ExtTreeMap.ext_getElem? fun name => by
    rw [Std.ExtTreeMap.getElem?_union, Option.or_self]

/-- What is known about a selector, with further properties merged into it. -/
def extend (known : Option Properties) (properties : Properties) : Option Properties :=
  some ((known.getD {}).merge properties)

/-- The same properties a second time make no difference. -/
theorem extend_extend (known : Option Properties) (properties : Properties) :
    extend (extend known properties) properties = extend known properties := by
  rw [extend, extend, Option.getD_some, Properties.merge_assoc, Properties.merge_self]

namespace RuleTable

variable {table : RuleTable}

/-- The table with further entries, in order. -/
def addAll (table : RuleTable) (entries : List (String × Properties)) : RuleTable :=
  entries.foldl (fun table (selector, properties) => table.add selector properties) table

/-- The table with the rules of several sheets added, and the sum of the numbers that the
sheets report. -/
def addSheets (table : RuleTable) : List String → RuleTable × Nat
  | [] => (table, 0)
  | sheet :: rest =>
      let (after, count) := table.addSheet sheet
      let (last, more) := after.addSheets rest
      (last, count + more)

/-- Entries may be added in two goes. -/
theorem addAll_append (table : RuleTable) (first second : List (String × Properties)) :
    table.addAll (first ++ second) = (table.addAll first).addAll second :=
  List.foldl_append

/-- Several sheets add the entries of each in turn. -/
theorem addSheets_eq (table : RuleTable) (sheets : List String) :
    table.addSheets sheets =
      (table.addAll (sheets.flatMap sheetEntries), (sheets.flatMap sheetEntries).length) := by
  induction sheets generalizing table with
  | nil => rfl
  | cons sheet rest ih =>
      have first : table.addSheet sheet =
          (table.addAll (sheetEntries sheet), (sheetEntries sheet).length) := rfl
      rw [addSheets, first, List.flatMap_cons, addAll_append, List.length_append]
      simp only [ih]

/-- The same properties for several selectors. -/
theorem rule?_addAll_map (table : RuleTable) (names : List String) (properties : Properties)
    (selector : String) :
    (table.addAll (names.map fun name => (name, properties))).rule? selector =
      if selector ∈ names then extend (table.rule? selector) properties
      else table.rule? selector := by
  induction names generalizing table with
  | nil => rfl
  | cons name rest ih =>
      have step : table.addAll ((name :: rest).map fun name => (name, properties)) =
          (table.add name properties).addAll (rest.map fun name => (name, properties)) := rfl
      rw [step, ih, rule?_add]
      by_cases here : name = selector
      · subst here
        rw [if_pos rfl, if_pos List.mem_cons_self]
        split
        · exact extend_extend _ _
        · rfl
      · rw [if_neg here]
        simp only [List.mem_cons, Ne.symm here, false_or]

end RuleTable

/-- The block gives properties to the selector. -/
def Block.sets (block : Block) (selector : String) : Bool :=
  block.isUsable && block.selectors.contains selector

namespace RuleTable

/-- A block extends what is known of the selectors it sets. -/
theorem rule?_addAll_entries (table : RuleTable) (block : Block) (selector : String) :
    (table.addAll block.entries).rule? selector =
      if block.sets selector then extend (table.rule? selector) block.properties
      else table.rule? selector := by
  cases usable : block.isUsable with
  | true =>
      rw [Block.entries, if_pos usable, rule?_addAll_map]
      simp [Block.sets, usable]
  | false =>
      rw [Block.entries, Block.sets, usable]
      rfl

/-- What is known of a selector is extended by the blocks that set it, in order. -/
theorem rule?_addAll_flatMap (table : RuleTable) (blocks : List Block) (selector : String) :
    (table.addAll (blocks.flatMap Block.entries)).rule? selector =
      (blocks.filter (·.sets selector)).foldl (fun known block => extend known block.properties)
        (table.rule? selector) := by
  rw [List.foldl_filter]
  induction blocks generalizing table with
  | nil => rfl
  | cons block rest ih =>
      rw [List.flatMap_cons, addAll_append, ih, rule?_addAll_entries, List.foldl_cons]

theorem length_flatMap_entries (blocks : List Block) :
    (blocks.flatMap Block.entries).length =
      ((blocks.filter Block.isUsable).flatMap Block.selectors).length := by
  induction blocks with
  | nil => rfl
  | cons block rest ih =>
      rw [List.flatMap_cons, List.length_append, ih, Block.entries, List.filter_cons]
      split
      · rw [List.flatMap_cons, List.length_append, List.length_map]
      · exact Nat.zero_add _

/-- Blocks that are printed into any number of sheets give every selector what it had, merged
in order with the properties of the blocks that set some for it, and leave all other selectors
alone.  The sheets report every selector of every block that sets something. -/
theorem addSheets_printed {layout : Layout} (blank : layout.IsBlank) {sheets : List (List Block)}
    (written : ∀ blocks ∈ sheets, ∀ block ∈ blocks, block.Written) (table : RuleTable) :
    let (after, count) := table.addSheets (sheets.map layout.sheet)
    (∀ selector, after.rule? selector =
        (sheets.flatten.filter (·.sets selector)).foldl
          (fun known block => extend known block.properties) (table.rule? selector)) ∧
      count = ((sheets.flatten.filter Block.isUsable).flatMap Block.selectors).length := by
  have entries : (sheets.map layout.sheet).flatMap sheetEntries =
      sheets.flatten.flatMap Block.entries := by
    rw [List.flatMap_map, List.flatten_eq_flatMap, List.flatMap_assoc]
    exact List.flatMap_congr fun blocks member =>
      Layout.sheetEntries_sheet blank (written blocks member)
  rw [addSheets_eq, entries]
  exact ⟨rule?_addAll_flatMap table sheets.flatten, length_flatMap_entries sheets.flatten⟩

/-- Two sheets with a selector that comes again, a block that sets nothing, and a string that
only looks like a comment. -/
def sampleSheets : List (List Block) :=
  [ [⟨["p", "div > p"], "color: Red"⟩, ⟨["q"], "color"⟩],
    [⟨["p", ".A", "p"], "content: '/*;'; font-size: 12pt"⟩] ]

theorem addSheets_printed_sampleSheets :
    (({} : Layout).IsBlank ∧ ∀ blocks ∈ sampleSheets, ∀ block ∈ blocks, block.Written) ∧
      let (after, count) := addSheets {} (sampleSheets.map ({} : Layout).sheet)
      (∀ selector, after.rule? selector =
          (sampleSheets.flatten.filter (·.sets selector)).foldl
            (fun known block => extend known block.properties) none) ∧
        count = 5 ∧ after.rule? "q" = none ∧
          (after.rule? "p").map (fun known => (known.color, known.size)) =
            some (some "red", some 12) := by
  have blank : ({} : Layout).IsBlank := by decide
  have written : ∀ blocks ∈ sampleSheets, ∀ block ∈ blocks, block.Written := by decide +kernel
  obtain ⟨rules, count⟩ := addSheets_printed blank written {}
  refine ⟨⟨blank, written⟩, rules, count.trans ?_, (rules "q").trans ?_, ?_⟩
  · decide +kernel
  · decide +kernel
  · rw [rules "p"]
    decide +kernel

end RuleTable

end Style
end Pagelet
