import Pagelet.Proofs.Style.Printing

/-!
# Rules inside at-rules

An at-rule holds rules between braces of its own.  Braces are matched without nesting, so the
block of an at-rule ends where its first rule ends.  That rule is passed over with the at-rule;
the rules behind it are read as if they stood outside, and the brace that is left over makes no
difference.
-/

namespace Pagelet
namespace Style

open Text (IsBlankText Quotation)

/-- A rule with its blanks, and with its selectors in any form. -/
structure Rule where
  /-- What stands before the opening brace. -/
  head : String
  /-- What stands between the braces. -/
  body : String
deriving DecidableEq, Repr

namespace Rule

/-- The rule as it is written. -/
def text (rule : Rule) : List Char :=
  rule.head.toList ++ '{' :: (rule.body.toList ++ ['}'])

/-- The rule holds no other rule: neither part has a brace, an open quote or a comment. -/
@[mk_iff]
structure IsFlat (rule : Rule) : Prop where
  /-- What stands before the braces is such a text. -/
  head : IsBody rule.head
  /-- What stands between the braces is such a text. -/
  body : IsBody rule.body

/-- A sheet of rules, with an ending behind the last one. -/
def sheet (rules : List Rule) (ending : List Char) : String :=
  String.ofList (rules.flatMap text ++ ending)

/-- What the rule adds to a rule table. -/
def entries (rule : Rule) : List (String × Properties) :=
  blockEntries rule.head.toList rule.body.toList

end Rule

/-- An at-rule that holds rules. -/
structure AtRule where
  /-- The name and what follows it before the opening brace, without the sign. -/
  prelude : String
  /-- The rules inside. -/
  rules : List Rule
  /-- What stands behind the last rule. -/
  gap : List Char := [' ']
deriving DecidableEq, Repr

namespace AtRule

/-- The at-rule as it is written. -/
def text (atRule : AtRule) : List Char :=
  '@' :: atRule.prelude.toList ++ '{' :: (atRule.rules.flatMap Rule.text ++ atRule.gap ++ ['}'])

/-- An at-rule that can be written. -/
@[mk_iff]
structure Written (atRule : AtRule) : Prop where
  /-- The prelude has no brace, no quote and no slash. -/
  prelude : IsPlain atRule.prelude.toList
  /-- The rules inside are flat. -/
  rules : ∀ rule ∈ atRule.rules, rule.IsFlat
  /-- Blanks stand behind the last rule. -/
  gap : IsBlankText atRule.gap

/-- A sheet of an at-rule and rules behind it. -/
def sheet (atRule : AtRule) (others : List Rule) (ending : List Char) : String :=
  String.ofList (atRule.text ++ (others.flatMap Rule.text ++ ending))

end AtRule

section Comments

variable {behind : List Char}

theorem Uncommented.cons {state : Quotation} {c : Char} (noSlash : c ≠ '/')
    (uncommented : Uncommented (state.next marks c) behind) : Uncommented state (c :: behind) :=
  uncommented_cons_iff.2 ⟨fun begins => noSlash begins.2.1, uncommented⟩

/-- A flat text begins no comment with a sign behind it that is no star. -/
theorem IsBody.uncommented_append {text : String} (isBody : IsBody text) {sign : Char}
    (noStar : sign ≠ '*') (uncommented : Uncommented .outside (sign :: behind)) :
    Uncommented .outside (text.toList ++ sign :: behind) :=
  isBody.uncommented.append (by rwa [isBody.closed]) fun _ star => noStar (Option.some.inj star)

theorem Rule.IsFlat.uncommented {rule : Rule} (flat : rule.IsFlat)
    (uncommented : Uncommented .outside behind) :
    Uncommented .outside (rule.text ++ behind) := by
  have closes : Uncommented .outside ('}' :: behind) := .cons (by decide) uncommented
  have opens : Uncommented .outside ('{' :: (rule.body.toList ++ '}' :: behind)) :=
    .cons (by decide) (flat.body.uncommented_append (by decide) closes)
  simpa [Rule.text] using flat.head.uncommented_append (by decide) opens

theorem uncommented_rules {rules : List Rule} (flat : ∀ rule ∈ rules, rule.IsFlat)
    (uncommented : Uncommented .outside behind) :
    Uncommented .outside (rules.flatMap Rule.text ++ behind) := by
  induction rules with
  | nil => exact uncommented
  | cons rule rest ih =>
      obtain ⟨first, others⟩ := List.forall_mem_cons.1 flat
      rw [List.flatMap_cons, List.append_assoc]
      exact first.uncommented (ih others)

theorem uncommented_blank {blanks : List Char} (blank : IsBlankText blanks) :
    Uncommented .outside blanks :=
  .of_not_mem ((IsPlain.of_isBlankText blank).not_mem (by decide))

theorem AtRule.Written.uncommented {atRule : AtRule} (written : atRule.Written)
    (uncommented : Uncommented .outside behind) :
    Uncommented .outside (atRule.text ++ behind) := by
  have gap := IsPlain.of_isBlankText written.gap
  have ends : Uncommented .outside (atRule.gap ++ '}' :: behind) :=
    .append_of_not_mem (gap.not_mem (by decide)) gap.after_eq (.cons (by decide) uncommented)
  have inside := uncommented_rules written.rules ends
  have opens : Uncommented .outside (atRule.prelude.toList ++
      '{' :: (atRule.rules.flatMap Rule.text ++ (atRule.gap ++ '}' :: behind))) :=
    .append_of_not_mem (written.prelude.not_mem (by decide)) written.prelude.after_eq
      (.cons (by decide) inside)
  have marked : Uncommented .outside ('@' :: (atRule.prelude.toList ++
      '{' :: (atRule.rules.flatMap Rule.text ++ (atRule.gap ++ '}' :: behind)))) :=
    .cons (by decide) opens
  simpa [AtRule.text] using marked

end Comments

/-- What a text without comments adds to a rule table. -/
def textEntries (cs : List Char) : List (String × Properties) :=
  (blocks cs).flatMap fun (before, body) => blockEntries before body

/-- A sheet without comments is read as it stands. -/
theorem sheetEntries_of_uncommented {cs : List Char} (uncommented : Uncommented .outside cs) :
    sheetEntries (String.ofList cs) = textEntries cs := by
  rw [sheetEntries, String.toList_ofList, uncommented.dropComments_eq]
  rfl

/-- A block whose braces are the outermost is read, and then what comes behind it. -/
theorem textEntries_append {before body : List Char} (noOpening : '{' ∉ before)
    (closedBefore : Quotation.after marks .outside before = .outside)
    (noClosing : '}' ∉ body) (closedBody : Quotation.after marks .outside body = .outside)
    (behind : List Char) :
    textEntries (before ++ '{' :: (body ++ '}' :: behind)) =
      blockEntries before body ++ textEntries behind := by
  rw [textEntries, blocks_append (.of_not_mem noOpening) closedBefore (.of_not_mem noClosing)
    closedBody, List.flatMap_cons]
  rfl

theorem textEntries_blank {blanks : List Char} (blank : IsBlankText blanks) :
    textEntries blanks = [] := by
  rw [textEntries, blocks_of_not_mem ((IsPlain.of_isBlankText blank).not_mem (by decide))]
  rfl

/-- A block that opens another adds nothing. -/
theorem blockEntries_nested {body : List Char} (nested : '{' ∈ body) (before : List Char) :
    blockEntries before body = [] := by
  rw [blockEntries, if_pos (List.contains_iff_mem.2 nested)]

theorem blockEntries_blank {body : List Char} (blank : IsBlankText body) (before : List Char) :
    blockEntries before body = [] := by
  have nothing : Properties.ofBlock body = Properties.ofBlock [] := by
    simpa using Properties.ofBlock_spaced blank Text.isBlankText_nil []
  have empty : (Properties.ofBlock []).isEmpty = true := by decide
  rw [blockEntries, nothing, if_pos empty, ite_self]

/-- What stands before a closing brace belongs to no selector. -/
theorem blockEntries_behindBrace {head : List Char} (noClosing : '}' ∉ head)
    (front body : List Char) :
    blockEntries (front ++ '}' :: head) body = blockEntries head body := by
  have cut : behindBraces (front ++ '}' :: head) = behindBraces head := by
    have kept : ∀ c ∈ head.reverse, (c != '}') = true := fun c member => by
      rw [bne_iff_ne]
      rintro rfl
      exact noClosing (List.mem_reverse.1 member)
    rw [behindBraces_of_not_mem noClosing, behindBraces, List.reverse_append, List.reverse_cons,
      List.append_assoc, List.takeWhile_append_of_pos kept]
    simp
  rw [blockEntries, blockEntries, cut]

/-- Where no brace is left over, a block has the selectors that stand before it. -/
theorem blockEntries_eq {before : List Char} (noClosing : '}' ∉ before) {body : String}
    (noOpening : '{' ∉ body.toList) :
    blockEntries before body.toList = (Block.mk (selectors before) body).entries := by
  have flat : ¬ body.toList.contains '{' = true := by simpa using noOpening
  rw [blockEntries, if_neg flat, behindBraces_of_not_mem noClosing, Block.entries, Block.isUsable,
    Block.properties, Properties.parse]
  cases empty : (Properties.ofBlock body.toList).isEmpty <;> simp [empty]

namespace Rule

/-- The rule as a block, with the selectors that are read from what stands before the brace. -/
def block (rule : Rule) : Block :=
  ⟨selectors rule.head.toList, rule.body⟩

/-- A rule without braces in its parts gives the entries of its block. -/
theorem entries_eq_block {rule : Rule} (noClosing : '}' ∉ rule.head.toList)
    (noOpening : '{' ∉ rule.body.toList) : rule.entries = rule.block.entries :=
  blockEntries_eq noClosing noOpening

theorem textEntries_text {rule : Rule} (flat : rule.IsFlat) (behind : List Char) :
    textEntries (rule.text ++ behind) = rule.entries ++ textEntries behind := by
  have cut := textEntries_append flat.head.noOpening flat.head.closed flat.body.noClosing
    flat.body.closed behind
  simpa [text, entries] using cut

/-- Flat rules give their entries in order, in front of what comes behind them. -/
theorem textEntries_rules {rules : List Rule} (flat : ∀ rule ∈ rules, rule.IsFlat)
    (behind : List Char) :
    textEntries (rules.flatMap text ++ behind) = rules.flatMap entries ++ textEntries behind := by
  induction rules with
  | nil => rfl
  | cons rule rest ih =>
      obtain ⟨first, others⟩ := List.forall_mem_cons.1 flat
      rw [List.flatMap_cons, List.flatMap_cons, List.append_assoc, textEntries_text first,
        ih others, List.append_assoc]

/-- A closing brace that is left over makes no difference to the rules behind it. -/
theorem textEntries_behindBrace {gap : List Char} (gapBlank : IsBlankText gap)
    {rules : List Rule} (flat : ∀ rule ∈ rules, rule.IsFlat) {ending : List Char}
    (blank : IsBlankText ending) :
    textEntries (gap ++ '}' :: (rules.flatMap text ++ ending)) = rules.flatMap entries := by
  have gapPlain := IsPlain.of_isBlankText gapBlank
  have opening : '{' ∈ signs := by decide
  cases rules with
  | nil =>
      have noOpening : '{' ∉ gap ++ '}' :: ending := by
        simp [gapPlain.not_mem opening, (IsPlain.of_isBlankText blank).not_mem opening]
      rw [textEntries, List.flatMap_nil, List.nil_append, blocks_of_not_mem noOpening]
      rfl
  | cons rule rest =>
      obtain ⟨first, others⟩ := List.forall_mem_cons.1 flat
      have noOpening : '{' ∉ gap ++ '}' :: rule.head.toList := by
        simp [gapPlain.not_mem opening, first.head.noOpening]
      have closed : Quotation.after marks .outside (gap ++ '}' :: rule.head.toList) =
          .outside := by
        rw [Quotation.after_append, gapPlain.after_eq]
        exact first.head.closed
      have cut := textEntries_append noOpening closed first.body.noClosing first.body.closed
        (rest.flatMap text ++ ending)
      rw [blockEntries_behindBrace first.head.noClosing, textEntries_rules others,
        textEntries_blank blank, List.append_nil] at cut
      simpa [text, entries] using cut

/-- A sheet of flat rules gives their entries in order. -/
theorem sheetEntries_sheet {rules : List Rule} (flat : ∀ rule ∈ rules, rule.IsFlat)
    {ending : List Char} (blank : IsBlankText ending) :
    sheetEntries (sheet rules ending) = rules.flatMap entries := by
  rw [sheet, sheetEntries_of_uncommented (uncommented_rules flat (uncommented_blank blank)),
    textEntries_rules flat, textEntries_blank blank, List.append_nil]

end Rule

/-- All that an at-rule keeps out of the table is its first rule. -/
theorem AtRule.sheetEntries_sheet {atRule : AtRule} (written : atRule.Written)
    {others : List Rule} (flat : ∀ rule ∈ others, rule.IsFlat) {ending : List Char}
    (blank : IsBlankText ending) :
    sheetEntries (atRule.sheet others ending) =
      (atRule.rules.drop 1 ++ others).flatMap Rule.entries := by
  obtain ⟨prelude, rules, gap⟩ := atRule
  have before : IsPlain ('@' :: prelude.toList) :=
    List.forall_mem_cons.2 ⟨by decide, written.prelude⟩
  have uncommented := written.uncommented (uncommented_rules flat (uncommented_blank blank))
  rw [AtRule.sheet, sheetEntries_of_uncommented uncommented]
  cases rules with
  | nil =>
      -- the block is empty, and its closing brace is that of the at-rule
      have gapPlain := IsPlain.of_isBlankText written.gap
      have cut := textEntries_append (before.not_mem (by decide)) before.after_eq
        (gapPlain.not_mem (by decide)) gapPlain.after_eq (others.flatMap Rule.text ++ ending)
      rw [blockEntries_blank written.gap, Rule.textEntries_rules flat, textEntries_blank blank]
        at cut
      simpa [AtRule.text] using cut
  | cons rule rest =>
      -- the block ends with the first rule, whose opening brace it holds
      obtain ⟨first, more⟩ := List.forall_mem_cons.1 written.rules
      let block := rule.head.toList ++ '{' :: rule.body.toList
      have noClosing : '}' ∉ block := by
        simp [block, first.head.noClosing, first.body.noClosing]
      have closed : Quotation.after marks .outside block = .outside := by
        rw [Quotation.after_append, first.head.closed]
        exact first.body.closed
      have cut := textEntries_append (before.not_mem (by decide)) before.after_eq noClosing closed
        (rest.flatMap Rule.text ++ (gap ++ '}' :: (others.flatMap Rule.text ++ ending)))
      rw [blockEntries_nested (by simp [block]), Rule.textEntries_rules more,
        Rule.textEntries_behindBrace written.gap flat blank] at cut
      simpa [AtRule.text, Rule.text, block] using cut

instance : DecidablePred Rule.IsFlat := fun rule =>
  decidable_of_iff' _ (Rule.isFlat_iff rule)

instance : DecidablePred AtRule.Written := fun atRule =>
  decidable_of_iff' _ (AtRule.written_iff atRule)

namespace RuleTable

/-- Sheets with the same entries add the same rules. -/
theorem addSheet_congr {first second : String} (same : sheetEntries first = sheetEntries second)
    (table : RuleTable) : table.addSheet first = table.addSheet second := by
  rw [addSheet, addSheet, same]

/-- An at-rule with rules behind it does to every table what its rules but the first, and those
behind it, do without the at-rule.  So nothing leaks out of it exactly if all its rules but the
first set nothing. -/
theorem addSheet_atRule {atRule : AtRule} (written : atRule.Written) {others : List Rule}
    (flat : ∀ rule ∈ others, rule.IsFlat) {ending : List Char} (blank : IsBlankText ending) :
    let sheet := atRule.sheet others ending
    let leaked := atRule.rules.drop 1
    (∀ table : RuleTable,
        table.addSheet sheet = table.addSheet (Rule.sheet (leaked ++ others) ending)) ∧
      (sheetEntries sheet = sheetEntries (Rule.sheet others ending) ↔
        ∀ rule ∈ leaked, sheetEntries (Rule.sheet [rule] []) = []) := by
  intro sheet leaked
  have leakedFlat : ∀ rule ∈ leaked, rule.IsFlat := fun rule member =>
    written.rules rule (List.mem_of_mem_drop member)
  have whole : sheetEntries sheet = (leaked ++ others).flatMap Rule.entries :=
    AtRule.sheetEntries_sheet written flat blank
  have outside : sheetEntries (Rule.sheet others ending) = others.flatMap Rule.entries :=
    Rule.sheetEntries_sheet flat blank
  have alone : ∀ rule ∈ leaked, sheetEntries (Rule.sheet [rule] []) = rule.entries :=
    fun rule member => by
      rw [Rule.sheetEntries_sheet (List.forall_mem_singleton.2 (leakedFlat rule member))
        Text.isBlankText_nil, List.flatMap_singleton]
  refine ⟨fun table => addSheet_congr ?_ table, ?_⟩
  · rw [whole, Rule.sheetEntries_sheet (List.forall_mem_append.2 ⟨leakedFlat, flat⟩) blank]
  · rw [whole, outside, List.flatMap_append, List.append_left_eq_self, List.flatMap_eq_nil_iff]
    exact forall₂_congr fun rule member => by rw [alone rule member]

/-- Styles for print with two rules inside. -/
def printStyles : AtRule where
  prelude := "media print "
  rules := [⟨" .a ", " color: red "⟩, ⟨" .b ", " color: blue "⟩]

/-- A rule behind the styles for print. -/
def screenRule : Rule := ⟨" p ", " color: green "⟩

theorem addSheet_atRule_printStyles :
    (printStyles.Written ∧ (∀ rule ∈ [screenRule], rule.IsFlat) ∧ IsBlankText ['\n']) ∧
      (∀ table : RuleTable,
        table.addSheet (printStyles.sheet [screenRule] ['\n']) =
          table.addSheet (Rule.sheet (printStyles.rules.drop 1 ++ [screenRule]) ['\n'])) ∧
      (sheetEntries (printStyles.sheet [screenRule] ['\n']) =
          sheetEntries (Rule.sheet [screenRule] ['\n']) ↔
        ∀ rule ∈ printStyles.rules.drop 1, sheetEntries (Rule.sheet [rule] []) = []) := by
  have written : printStyles.Written := by decide +kernel
  have flat : ∀ rule ∈ [screenRule], rule.IsFlat := by decide +kernel
  have blank : IsBlankText ['\n'] := by decide
  exact ⟨⟨written, flat, blank⟩, addSheet_atRule written flat blank⟩

/-- The second of two rules for print counts everywhere. -/
theorem printStyles_leaks :
    (printStyles.Written ∧ screenRule.IsFlat) ∧
      printStyles.sheet [screenRule] [] =
        "@media print \x7b .a \x7b color: red \x7d .b \x7b color: blue \x7d \x7d p \x7b color: green \x7d" ∧
      ((ofSheet (printStyles.sheet [screenRule] [])).rule? ".b").map (·.color) =
        some (some "blue") ∧
      (ofSheet (Rule.sheet [screenRule] [])).rule? ".b" = none := by
  decide +kernel

end RuleTable

end Style
end Pagelet
