import Pagelet.Style.Declaration

/-!
# Style sheets

A sheet is a list of rules, each a list of selectors before a block in braces.
Every selector is kept with the properties of its blocks merged in the order in
which they come.  A block that holds another is passed over.
-/

namespace Pagelet
namespace Style

open Text (Quotation Region)

/-- The text without its comments.  What a comment holds opens and closes nothing;
one that is not closed runs to the end. -/
def dropComments : Region → List Char → List Char
  | _, [] => []
  | .comment, '*' :: '/' :: rest => dropComments (.code .outside) rest
  | .comment, _ :: rest => dropComments .comment rest
  | .code .outside, '/' :: '*' :: rest => dropComments .comment rest
  | .code state, c :: rest => c :: dropComments (.code (state.next marks c)) rest

/-- The blocks of a sheet without comments, each with the text before it.  A block
ends at the first closing brace outside quotes, whatever braces it holds. -/
def blocks (cs : List Char) : List (List Char × List Char) :=
  match _opening : Quotation.cutAt marks '{' .outside cs with
  | none => []
  | some (before, rest) =>
      match _closing : Quotation.cutAt marks '}' .outside rest with
      | none => []
      | some (body, behind) => (before, body) :: blocks behind
termination_by cs.length
decreasing_by
  have opened := congrArg List.length (Quotation.eq_of_cutAt _opening)
  have closed := congrArg List.length (Quotation.eq_of_cutAt _closing)
  simp only [List.length_append, List.length_cons] at opened closed
  omega

/-- The text behind the last closing brace.  What an enclosing block leaves over
stands in front of it. -/
def behindBraces (cs : List Char) : List Char :=
  (cs.reverse.takeWhile (· != '}')).reverse

/-- A selector in the form in which rules are looked up: single-spaced, and in
small letters if it begins with a letter. -/
def selector? (cs : List Char) : Option String :=
  match Text.collapse cs with
  | [] => none
  | '@' :: _ => none
  | c :: rest =>
      some (String.ofList (if c.isAlpha then Text.asciiLowercase (c :: rest) else c :: rest))

/-- The selectors of a list between commas. -/
def selectors (cs : List Char) : List String :=
  (cs.splitOnP (· == ',')).filterMap selector?

/-- What one block adds to a rule table: its properties for each of its selectors. -/
def blockEntries (before body : List Char) : List (String × Properties) :=
  if body.contains '{' then []
  else
    let properties := Properties.ofBlock body
    if properties.isEmpty then []
    else (selectors (behindBraces before)).map fun selector => (selector, properties)

/-- What a whole sheet adds to a rule table, in order. -/
def sheetEntries (sheet : String) : List (String × Properties) :=
  (blocks (dropComments (.code .outside) sheet.toList)).flatMap fun (before, body) =>
    blockEntries before body

/-- The properties of every selector that some sheet names. -/
structure RuleTable where
  /-- The properties, by selector. -/
  rules : Std.ExtTreeMap String Properties compare := ∅
deriving DecidableEq, Inhabited

namespace RuleTable

/-- The number of selectors with properties. -/
def size (table : RuleTable) : Nat :=
  table.rules.size

/-- Whether no selector has properties. -/
def isEmpty (table : RuleTable) : Bool :=
  table.rules.isEmpty

/-- The properties of a selector. -/
def rule? (table : RuleTable) (selector : String) : Option Properties :=
  table.rules[selector]?

/-- The table with further properties for a selector, merged into what it has. -/
def add (table : RuleTable) (selector : String) (properties : Properties) : RuleTable :=
  ⟨table.rules.alter selector fun known => some ((known.getD {}).merge properties)⟩

/-- The table with the rules of a sheet added, and the number of entries that were
set or changed, each time counted. -/
def addSheet (table : RuleTable) (sheet : String) : RuleTable × Nat :=
  let entries := sheetEntries sheet
  (entries.foldl (fun table (selector, properties) => table.add selector properties) table,
    entries.length)

/-- The rule table of a single sheet. -/
def ofSheet (sheet : String) : RuleTable :=
  (addSheet {} sheet).1

/-- Adding properties changes the entry of that selector alone. -/
theorem rule?_add (table : RuleTable) (selector other : String) (properties : Properties) :
    (table.add selector properties).rule? other =
      if selector = other then some (((table.rule? selector).getD {}).merge properties)
      else table.rule? other := by
  simp [rule?, add, Std.ExtTreeMap.getElem?_alter, Std.LawfulEqCmp.compare_eq_iff_eq]

end RuleTable

end Style
end Pagelet
