import Pagelet.Proofs.Style.Accumulation
import Pagelet.Proofs.Style.AtRules

/-!
# Rules behind at-rules

An at-rule either ends with a semicolon or holds rules between braces.  What stands before an
opening brace is taken for a list of selectors, and a semicolon ends none, so an at-rule of the
first form becomes a part of the first selector behind it.  That selector is lost to its rule;
all others count as if the at-rule were not there, and nothing behind a closing brace is lost.
-/

namespace Pagelet
namespace Style

open Text (IsBlankText Quotation isBlank)

/-- What stands behind the first comma. -/
def behindComma (cs : List Char) : List Char :=
  (cs.dropWhile (· != ',')).drop 1

/-- A list of selectors is its first member and the others. -/
theorem selectors_eq_cut (cs : List Char) :
    selectors cs =
      (selector? (cs.takeWhile (· != ','))).toList ++ selectors (behindComma cs) := by
  have noComma : ',' ∉ cs.takeWhile (· != ',') := fun member => by
    simpa using List.mem_takeWhile_imp member
  have whole := List.takeWhile_append_dropWhile (p := (· != ',')) (l := cs)
  cases drop : cs.dropWhile (· != ',') with
  | nil =>
      rw [drop, List.append_nil] at whole
      have nothing : selectors (behindComma cs) = [] := by
        rw [behindComma, drop]
        rfl
      rw [nothing, List.append_nil, ← selectors_of_not_mem noComma, whole]
  | cons c rest =>
      obtain rfl : c = ',' := by
        have stopped := List.head?_dropWhile_not (· != ',') cs
        simpa [drop] using stopped
      rw [behindComma, drop, ← selectors_of_not_mem noComma, List.drop_one, List.tail_cons,
        ← selectors_append_cons, ← drop, whole]

/-- What begins with an at sign is no selector. -/
theorem selector?_at (cs : List Char) : selector? ('@' :: cs) = none := by
  obtain ⟨tail, collapsed⟩ := Text.exists_collapse_cons (show isBlank '@' = false by decide) cs
  rw [selector?, collapsed]
  rfl

/-- A text with an at sign before it spoils the first selector behind it, and no other. -/
theorem selectors_at_append {front : List Char} (noComma : ',' ∉ front) (cs : List Char) :
    selectors ('@' :: (front ++ cs)) = selectors (behindComma cs) := by
  have plain : ∀ c ∈ '@' :: front, (c != ',') = true := by
    refine List.forall_mem_cons.2 ⟨by decide, fun c member => ?_⟩
    rw [bne_iff_ne]
    rintro rfl
    exact noComma member
  have same : behindComma ('@' :: front ++ cs) = behindComma cs := by
    rw [behindComma, List.dropWhile_append_of_pos plain]
    rfl
  have spoilt : selector? (('@' :: front ++ cs).takeWhile (· != ',')) = none := by
    rw [List.takeWhile_append_of_pos plain]
    exact selector?_at _
  rw [← List.cons_append, selectors_eq_cut, spoilt, same]
  rfl

/-- Several selectors are given the same. -/
theorem Block.entries_append (first second : List String) (body : String) :
    (Block.mk (first ++ second) body).entries =
      (Block.mk first body).entries ++ (Block.mk second body).entries := by
  have usable (names : List String) :
      (Block.mk names body).isUsable = !(Properties.parse body).isEmpty := rfl
  rw [entries, entries, entries, usable, usable, usable]
  cases (Properties.parse body).isEmpty <;> simp [properties]

namespace Rule

/-- The rule for its first selector alone. -/
def forFirst (rule : Rule) : Rule :=
  { rule with head := String.ofList (rule.head.toList.takeWhile (· != ',')) }

/-- The rule for all but its first selector. -/
def forOthers (rule : Rule) : Rule :=
  { rule with head := String.ofList (behindComma rule.head.toList) }

theorem not_mem_forOthers {rule : Rule} {c : Char} (absent : c ∉ rule.head.toList) :
    c ∉ rule.forOthers.head.toList := by
  rw [forOthers, String.toList_ofList, behindComma]
  exact fun member => absent ((List.dropWhile_suffix _).subset (List.mem_of_mem_drop member))

theorem block_forFirst (rule : Rule) :
    rule.forFirst.block =
      ⟨(selector? (rule.head.toList.takeWhile (· != ','))).toList, rule.body⟩ := by
  have noComma : ',' ∉ rule.head.toList.takeWhile (· != ',') := fun member => by
    simpa using List.mem_takeWhile_imp member
  rw [block, forFirst, String.toList_ofList, selectors_of_not_mem noComma]

theorem block_forOthers (rule : Rule) :
    rule.forOthers.block = ⟨selectors (behindComma rule.head.toList), rule.body⟩ := by
  rw [block, forOthers, String.toList_ofList]

/-- A rule is one for its first selector and one for the others. -/
theorem entries_eq_append {rule : Rule} (noClosing : '}' ∉ rule.head.toList)
    (noOpening : '{' ∉ rule.body.toList) :
    rule.entries = rule.forFirst.entries ++ rule.forOthers.entries := by
  have first : '}' ∉ rule.forFirst.head.toList := by
    rw [forFirst, String.toList_ofList]
    exact fun member => noClosing ((List.takeWhile_prefix _).subset member)
  rw [entries_eq_block noClosing noOpening, entries_eq_block first noOpening,
    entries_eq_block (not_mem_forOthers noClosing) noOpening, block_forFirst, block_forOthers,
    ← Block.entries_append, ← selectors_eq_cut, block]

end Rule

/-- An at-rule in one of its two forms. -/
inductive Directive
  /-- The at-rule ends with a semicolon. -/
  | statement (prelude : String)
  /-- The at-rule holds rules between braces. -/
  | block (atRule : AtRule)
deriving DecidableEq, Repr

namespace Directive

/-- The at-rule as it is written. -/
def text : Directive → List Char
  | statement prelude => '@' :: (prelude.toList ++ [';'])
  | block atRule => atRule.text

/-- An at-rule that can be written.  The prelude of a statement has no comma either. -/
def Written : Directive → Prop
  | statement prelude => IsPlain prelude.toList ∧ ',' ∉ prelude.toList
  | block atRule => atRule.Written

/-- A sheet of an at-rule and rules behind it. -/
def sheet (directive : Directive) (rules : List Rule) (ending : List Char) : String :=
  String.ofList (directive.text ++ (rules.flatMap Rule.text ++ ending))

/-- The rules inside that count as if they stood outside. -/
def leaked : Directive → List Rule
  | statement _ => []
  | block atRule => atRule.rules.drop 1

/-- What is left of the rules behind the at-rule. -/
def spared : Directive → List Rule → List Rule
  | statement _, rules => rules.modifyHead Rule.forOthers
  | block _, rules => rules

/-- What the at-rule takes from the rules behind it. -/
def swallowed : Directive → List Rule → List Rule
  | statement _, rules => (rules.head?.map Rule.forFirst).toList
  | block _, _ => []

end Directive

theorem uncommented_statement {prelude : String} (plain : IsPlain prelude.toList)
    {behind : List Char} (uncommented : Uncommented .outside behind) :
    Uncommented .outside ((Directive.statement prelude).text ++ behind) := by
  have ends : Uncommented .outside (';' :: behind) := .cons (by decide) uncommented
  have opens : Uncommented .outside ('@' :: (prelude.toList ++ ';' :: behind)) :=
    .cons (by decide) (.append_of_not_mem (plain.not_mem (by decide)) plain.after_eq ends)
  simpa [Directive.text] using opens

/-- A statement takes the first selector of the first rule behind it, and nothing else. -/
theorem sheetEntries_statement {prelude : String} (plain : IsPlain prelude.toList)
    (noComma : ',' ∉ prelude.toList) {rules : List Rule} (flat : ∀ rule ∈ rules, rule.IsFlat)
    {ending : List Char} (blank : IsBlankText ending) :
    sheetEntries ((Directive.statement prelude).sheet rules ending) =
      (rules.modifyHead Rule.forOthers).flatMap Rule.entries := by
  have uncommented := uncommented_statement plain
    (uncommented_rules flat (uncommented_blank blank))
  rw [Directive.sheet, sheetEntries_of_uncommented uncommented]
  have front : IsPlain ('@' :: (prelude.toList ++ [';'])) :=
    List.forall_mem_cons.2 ⟨by decide, plain.append (List.forall_mem_singleton.2 (by decide))⟩
  cases rules with
  | nil =>
      have noOpening : '{' ∉ '@' :: (prelude.toList ++ [';']) ++ ending := by
        simp only [List.mem_append, not_or]
        exact ⟨front.not_mem (by decide),
          (IsPlain.of_isBlankText blank).not_mem (by decide)⟩
      rw [textEntries, List.flatMap_nil, List.nil_append, Directive.text,
        blocks_of_not_mem noOpening]
      rfl
  | cons rule rest =>
      obtain ⟨first, others⟩ := List.forall_mem_cons.1 flat
      let head := '@' :: (prelude.toList ++ [';']) ++ rule.head.toList
      have noOpening : '{' ∉ head := by
        simp only [head, List.mem_append, not_or]
        exact ⟨front.not_mem (by decide), first.head.noOpening⟩
      have noClosing : '}' ∉ head := by
        simp only [head, List.mem_append, not_or]
        exact ⟨front.not_mem (by decide), first.head.noClosing⟩
      have closed : Quotation.after marks .outside head = .outside := by
        rw [Quotation.after_append, front.after_eq, first.head.closed]
      have spoilt : blockEntries head rule.body.toList = rule.forOthers.entries := by
        have noPreludeComma : ',' ∉ prelude.toList ++ [';'] := by simpa using noComma
        have names : selectors head = selectors (behindComma rule.head.toList) :=
          selectors_at_append noPreludeComma rule.head.toList
        rw [blockEntries_eq noClosing first.body.noOpening, names,
          Rule.entries_eq_block (Rule.not_mem_forOthers first.head.noClosing) first.body.noOpening,
          Rule.block_forOthers]
      have cut := textEntries_append noOpening closed first.body.noClosing first.body.closed
        (rest.flatMap Rule.text ++ ending)
      rw [spoilt, Rule.textEntries_rules others, textEntries_blank blank, List.append_nil] at cut
      simpa [Directive.text, Rule.text, head] using cut

namespace Directive

/-- Whatever its form, an at-rule adds what leaks out of it and what it spares of the rules behind
it. -/
theorem sheetEntries_sheet {directive : Directive} (written : directive.Written)
    {rules : List Rule} (flat : ∀ rule ∈ rules, rule.IsFlat) {ending : List Char}
    (blank : IsBlankText ending) :
    sheetEntries (directive.sheet rules ending) =
      directive.leaked.flatMap Rule.entries ++ (directive.spared rules).flatMap Rule.entries := by
  cases directive with
  | statement prelude => exact sheetEntries_statement written.1 written.2 flat blank
  | block atRule =>
      rw [← List.flatMap_append]
      exact AtRule.sheetEntries_sheet written flat blank

/-- What an at-rule swallows and what it spares are all the rules behind it. -/
theorem flatMap_entries_eq (directive : Directive) {rules : List Rule}
    (flat : ∀ rule ∈ rules, rule.IsFlat) :
    rules.flatMap Rule.entries =
      (directive.swallowed rules).flatMap Rule.entries ++
        (directive.spared rules).flatMap Rule.entries := by
  cases directive with
  | block atRule => rfl
  | statement prelude =>
      cases rules with
      | nil => rfl
      | cons rule rest =>
          have first := flat rule List.mem_cons_self
          have cut := Rule.entries_eq_append first.head.noClosing first.body.noOpening
          simp [swallowed, spared, cut]

instance : DecidablePred Written
  | statement prelude =>
      inferInstanceAs (Decidable (IsPlain prelude.toList ∧ ',' ∉ prelude.toList))
  | block atRule => inferInstanceAs (Decidable atRule.Written)

end Directive

namespace RuleTable

/-- An at-rule does to every table what the rules do that leak out of it, followed by what it
spares of the rules behind it.  It spares all of them if it holds rules between braces.  If it ends
with a semicolon it spares all but the first selector of the first rule, so all count as if it were
not there exactly if the rule sets nothing for this selector. -/
theorem addSheet_behind {directive : Directive} (written : directive.Written) {rules : List Rule}
    (flat : ∀ rule ∈ rules, rule.IsFlat) {ending : List Char} (blank : IsBlankText ending) :
    let sheet := directive.sheet rules ending
    let added := directive.leaked.flatMap Rule.entries ++
      (directive.spared rules).flatMap Rule.entries
    (∀ table : RuleTable, table.addSheet sheet = (table.addAll added, added.length)) ∧
      (sheetEntries sheet =
          directive.leaked.flatMap Rule.entries ++ sheetEntries (Rule.sheet rules ending) ↔
        ∀ rule ∈ directive.swallowed rules, rule.entries = []) := by
  intro sheet added
  have whole : sheetEntries sheet = added := Directive.sheetEntries_sheet written flat blank
  have outside : sheetEntries (Rule.sheet rules ending) =
      (directive.swallowed rules).flatMap Rule.entries ++
        (directive.spared rules).flatMap Rule.entries :=
    (Rule.sheetEntries_sheet flat blank).trans (directive.flatMap_entries_eq flat)
  refine ⟨fun table => by rw [addSheet, whole]; rfl, ?_⟩
  rw [whole, outside, List.append_right_inj, List.self_eq_append_left, List.flatMap_eq_nil_iff]

/-- A statement that names another sheet. -/
def importTheme : Directive := .statement "import theme"

/-- Two rules behind the statement, the first with two selectors. -/
def themedRules : List Rule := [⟨" p, .a ", " color: red "⟩, ⟨" b ", " color: blue "⟩]

theorem addSheet_behind_importTheme :
    (importTheme.Written ∧ (∀ rule ∈ themedRules, rule.IsFlat) ∧ IsBlankText ['\n']) ∧
      (∀ table : RuleTable, table.addSheet (importTheme.sheet themedRules ['\n']) =
        (table.addAll ((importTheme.spared themedRules).flatMap Rule.entries), 2)) ∧
      (importTheme.spared themedRules).map (·.head) = [" .a ", " b "] ∧
      (sheetEntries (importTheme.sheet themedRules ['\n']) =
          sheetEntries (Rule.sheet themedRules ['\n']) ↔
        ∀ rule ∈ importTheme.swallowed themedRules, rule.entries = []) := by
  have written : importTheme.Written := by decide +kernel
  have flat : ∀ rule ∈ themedRules, rule.IsFlat := by decide +kernel
  have blank : IsBlankText ['\n'] := by decide
  obtain ⟨added, spared⟩ := addSheet_behind written flat blank
  have count : ((importTheme.spared themedRules).flatMap Rule.entries).length = 2 := by
    decide +kernel
  have heads : (importTheme.spared themedRules).map (·.head) = [" .a ", " b "] := by
    decide +kernel
  refine ⟨⟨written, flat, blank⟩, fun table => ?_, heads, spared⟩
  have whole := added table
  rwa [importTheme, Directive.leaked, List.flatMap_nil, List.nil_append, ← importTheme, count]
    at whole

/-- A statement before the only selector of a rule loses the rule. -/
theorem importTheme_swallows :
    (importTheme.Written ∧ Rule.IsFlat ⟨" p ", " color: red "⟩) ∧
      importTheme.sheet [⟨" p ", " color: red "⟩] [] =
        "@import theme; p \x7b color: red \x7d" ∧
      (ofSheet (importTheme.sheet [⟨" p ", " color: red "⟩] [])).rule? "p" = none ∧
      ((ofSheet (Rule.sheet [⟨" p ", " color: red "⟩] [])).rule? "p").map (·.color) =
        some (some "red") := by
  decide +kernel

end RuleTable

end Style
end Pagelet
