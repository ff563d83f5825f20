import Mathlib.Data.List.Basic
import Pagelet.Proofs.Style.Accumulation
import Pagelet.Proofs.Style.AtRules
import Pagelet.Style.Cascade

/-!
# What rules contribute to a tag

A start tag is looked up under its name, its first class and its id.  Under each of them it gets
what the rule table had, merged in order with the rules that set something for it.  The selectors
before a brace are cut at every comma.  Where no comma stands in a string or in brackets these
are the members of the list, and a rule without a member that names the tag can be left out.
-/

namespace Pagelet
namespace Style

open Markup (Attributes)

/-- Wherever the separator stands, it is exposed. -/
abbrev AllExposed (separator : Char) : Cover → List Char → Prop :=
  AtEvery Cover.next (·.exposes separator = true) separator

section AllExposed

variable {separator : Char} {cover : Cover} {cs : List Char}

/-- Cutting where separators are exposed is cutting at every separator, if all are. -/
theorem map_splitOnP_expose (exposed : AllExposed separator cover cs) :
    ((expose cover cs).splitOnP (isCut separator)).map (·.map Prod.fst) =
      cs.splitOnP (· == separator) := by
  induction cs generalizing cover with
  | nil => rfl
  | cons c rest ih =>
      obtain ⟨first, others⟩ := atEvery_cons_iff.1 exposed
      have same : isCut separator (c, cover.exposes c) = (c == separator) := by
        by_cases here : c = separator
        · simp [isCut, here, first here]
        · simp [isCut, here]
      rw [expose, List.splitOnP_cons_eq_if_modifyHead, List.splitOnP_cons_eq_if_modifyHead, same,
        ← ih others]
      cases c == separator with
      | true => rfl
      | false => cases (expose (cover.next c) rest).splitOnP (isCut separator) <;> rfl

/-- Where all separators are exposed, a text is cut at all of them. -/
theorem splitExposed_eq_splitOnP (exposed : AllExposed separator {} cs) :
    splitExposed separator cs = cs.splitOnP (· == separator) :=
  map_splitOnP_expose exposed

end AllExposed

namespace Rule

/-- The members of the list before the opening brace, which commas in strings and in brackets do
not end. -/
def members (rule : Rule) : List String :=
  (splitExposed ',' rule.head.toList).filterMap selector?

/-- No comma before the opening brace stands in a string or in brackets. -/
def ExposesCommas (rule : Rule) : Prop :=
  AllExposed ',' {} rule.head.toList

instance : DecidablePred ExposesCommas := fun rule =>
  inferInstanceAs (Decidable (AllExposed ',' {} rule.head.toList))

/-- If all commas are exposed, the members of the list are the selectors of the block. -/
theorem ExposesCommas.members_eq {rule : Rule} (exposed : rule.ExposesCommas) :
    rule.members = rule.block.selectors := by
  rw [members, splitExposed_eq_splitOnP exposed]
  rfl

end Rule

/-- What is known about a selector in the end is merged like all that became known. -/
theorem foldl_merge_toList (known : Option Properties) (further : List Properties)
    (start : Properties) :
    (further.foldl extend known).toList.foldl Properties.merge start =
      (known.toList ++ further).foldl Properties.merge start := by
  induction further generalizing known with
  | nil => rw [List.foldl_nil, List.append_nil]
  | cons properties rest ih =>
      rw [List.foldl_cons, ih]
      cases known with
      | none => simp [extend, Properties.empty_merge]
      | some before => simp [extend, Properties.merge_assoc]

/-- The selectors under which a start tag is looked up, the weakest first. -/
def tagSelectors (tag : String) (attributes : Attributes) : List String :=
  tag :: ((classSelector? attributes).toList ++ (idSelector? attributes).toList)

namespace RuleTable

variable (table : RuleTable)

/-- The layers of a start tag are what its selectors have and what it declares itself. -/
theorem layers_eq (tag : String) (attributes : Attributes) :
    table.layers tag attributes =
      (tagSelectors tag attributes).filterMap table.rule? ++
        (inlineProperties? attributes).toList := by
  rw [layers, tagSelectors, List.filterMap_eq_flatMap_toList, List.filterMap_eq_flatMap_toList]
  cases classSelector? attributes <;> cases idSelector? attributes <;> simp

/-- What a selector has in the table and gets from rules, in order. -/
def contributions (rules : List Rule) (selector : String) : List Properties :=
  (table.rule? selector).toList ++
    (rules.filter (·.block.sets selector)).map (·.block.properties)

variable {rules : List Rule} {ending : List Char}

/-- Each rule that sets something for a selector extends what is known of it. -/
theorem rule?_addSheet_rules (flat : ∀ rule ∈ rules, rule.IsFlat)
    (blank : Text.IsBlankText ending) (selector : String) :
    (table.addSheet (Rule.sheet rules ending)).1.rule? selector =
      ((rules.filter (·.block.sets selector)).map (·.block.properties)).foldl extend
        (table.rule? selector) := by
  have entries : sheetEntries (Rule.sheet rules ending) =
      (rules.map Rule.block).flatMap Block.entries := by
    rw [Rule.sheetEntries_sheet flat blank, List.flatMap_map]
    exact List.flatMap_congr fun rule member =>
      Rule.entries_eq_block (flat rule member).head.noClosing (flat rule member).body.noOpening
  have added : (table.addSheet (Rule.sheet rules ending)).1 =
      table.addAll ((rules.map Rule.block).flatMap Block.entries) := by
    rw [addSheet, entries]
    rfl
  rw [added, rule?_addAll_flatMap, List.filter_map, List.foldl_map, List.foldl_map]
  rfl

/-- A start tag gets what its selectors have and get from the rules of the sheet, selector by
selector, and what its own declarations set. -/
theorem resolve_addSheet (flat : ∀ rule ∈ rules, rule.IsFlat) (blank : Text.IsBlankText ending)
    (tag : String) (attributes : Attributes) :
    (table.addSheet (Rule.sheet rules ending)).1.resolve tag attributes =
      Properties.mergeAll ((tagSelectors tag attributes).flatMap (table.contributions rules) ++
        (inlineProperties? attributes).toList) := by
  rw [resolve, layers_eq, Properties.mergeAll, Properties.mergeAll, List.foldl_append,
    List.foldl_append, List.filterMap_eq_flatMap_toList, List.foldl_flatMap, List.foldl_flatMap]
  congr
  funext start selector
  rw [table.rule?_addSheet_rules flat blank, foldl_merge_toList, contributions]

/-- Rules that set nothing for a selector contribute nothing to it. -/
theorem contributions_filter {kept : Rule → Bool} {selector : String}
    (keeps : ∀ rule ∈ rules, rule.block.sets selector = true → kept rule = true) :
    table.contributions (rules.filter kept) selector = table.contributions rules selector := by
  have same : (rules.filter kept).filter (·.block.sets selector) =
      rules.filter (·.block.sets selector) := by
    rw [List.filter_filter]
    refine List.filter_congr fun rule member => ?_
    cases sets : rule.block.sets selector with
    | false => rfl
    | true => simp [keeps rule member sets]
  rw [contributions, contributions, same]

/-- A start tag gets from a sheet of rules what each of its selectors gets, in order.  A rule whose
commas are all exposed contributes only if a member of its list names the tag: else it can be left
out.  Where commas stand in strings or in brackets, the parts of the list between any two commas
count as its members. -/
theorem resolve_addSheet_named (flat : ∀ rule ∈ rules, rule.IsFlat)
    (blank : Text.IsBlankText ending) (tag : String) (attributes : Attributes) :
    let names := tagSelectors tag attributes
    let resolved (written : List Rule) :=
      (table.addSheet (Rule.sheet written ending)).1.resolve tag attributes
    let mayApply (rule : Rule) : Bool :=
      rule.members.any names.contains || !decide rule.ExposesCommas
    resolved rules =
        Properties.mergeAll (names.flatMap (table.contributions rules) ++
          (inlineProperties? attributes).toList) ∧
      resolved rules = resolved (rules.filter mayApply) := by
  intro names resolved mayApply
  have keptFlat : ∀ rule ∈ rules.filter mayApply, rule.IsFlat := fun rule member =>
    flat rule (List.mem_of_mem_filter member)
  have keeps (name : String) (isName : name ∈ names) :
      ∀ rule ∈ rules, rule.block.sets name = true → mayApply rule = true := by
    intro rule _ sets
    rw [Block.sets, Bool.and_eq_true] at sets
    by_cases exposed : rule.ExposesCommas
    · have member : name ∈ rule.members := by
        rw [exposed.members_eq]
        exact List.contains_iff_mem.1 sets.2
      have named : rule.members.any names.contains = true :=
        List.any_eq_true.2 ⟨name, member, List.contains_iff_mem.2 isName⟩
      simp [mayApply, named]
    · simp [mayApply, exposed]
  have same : names.flatMap (table.contributions (rules.filter mayApply)) =
      names.flatMap (table.contributions rules) :=
    List.flatMap_congr fun name isName => table.contributions_filter (keeps name isName)
  refine ⟨table.resolve_addSheet flat blank tag attributes, ?_⟩
  exact (table.resolve_addSheet flat blank tag attributes).trans
    (same ▸ (table.resolve_addSheet keptFlat blank tag attributes).symm)

/-- A rule that names a class of the tag and one that names the tag only beside another. -/
def listRules : List Rule :=
  [⟨" p, .A ", " color: red "⟩, ⟨" ul > LI,\n#main ", " color: blue "⟩]

theorem resolve_addSheet_named_listRules :
    ((∀ rule ∈ listRules, rule.IsFlat) ∧ Text.IsBlankText ['\n']) ∧
      (({} : RuleTable).addSheet (Rule.sheet listRules ['\n'])).1.resolve "li"
          [("class", "A b")] =
        (({} : RuleTable).addSheet (Rule.sheet (listRules.take 1) ['\n'])).1.resolve "li"
          [("class", "A b")] := by
  have flat : ∀ rule ∈ listRules, rule.IsFlat := by decide +kernel
  have blank : Text.IsBlankText ['\n'] := by decide
  have leftOut := (resolve_addSheet_named {} flat blank "li" [("class", "A b")]).2
  have kept : (listRules.filter fun rule =>
      rule.members.any (tagSelectors "li" [("class", "A b")]).contains ||
        !decide rule.ExposesCommas) = listRules.take 1 := by
    decide +kernel
  exact ⟨⟨flat, blank⟩, leftOut.trans (by rw [kept])⟩

/-- A rule for what is none of three things. -/
def negation : Rule := ⟨":not(.a, p, .b) ", " color: red "⟩

/-- The rule applies to one of the three, since its selector is cut inside the brackets. -/
theorem negation_applies :
    negation.IsFlat ∧
      Rule.sheet [negation] [] = ":not(.a, p, .b) \x7b color: red \x7d" ∧
      negation.members = [":not(.a, p, .b)"] ∧ tagSelectors "p" [] = ["p"] ∧
      ((ofSheet (Rule.sheet [negation] [])).resolve "p" []).color = some "red" := by
  decide +kernel

end RuleTable

end Style
end Pagelet
