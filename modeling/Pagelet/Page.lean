import Pagelet.Failure
import Pagelet.Page.Assembly

/-!
# Pages

A page is what its markup leaves behind: elements, style rules, resolved styles,
and the environment of its scripts.  Clicks and further scripts work on the same
environment.
-/

namespace Pagelet

open Document (Element ElementId Handle)
open Script (Environment Limits Report)
open Style (Properties ResolvedStyles RuleTable StyleRef)

/-- A page that has been read. -/
structure Page where
  /-- The elements. -/
  document : Document
  /-- The style rules of all sheets. -/
  rules : RuleTable
  /-- The style of every start tag. -/
  styles : ResolvedStyles
  /-- The variables and functions of the scripts. -/
  environment : Environment
  /-- The limits of every run. -/
  limits : Limits
  /-- The report of the scripts that ran while the page was read. -/
  report : Report

namespace Page

/-- The page that a text of markup writes.  Whatever the text, there is one. -/
def parse (settings : Settings) (markup : String) : Page :=
  let assembly := Assembly.ofTokens settings (Markup.Token.ofMarkup markup)
  { document := assembly.document
    rules := assembly.rules
    styles := assembly.styles
    environment := assembly.environment
    limits := settings.limits
    report := assembly.report }

/-- The style of an element, with what it inherits from the tags around it. -/
def computedStyle (page : Page) (element : Element) : Properties :=
  page.styles.computed element.chain

/-- Runs a script on the page: the page after it, and its report. -/
def runScript (page : Page) (source : String) (chain : List StyleRef) : Page × Report :=
  let state := Script.run ⟨page.limits, chain⟩ source page.environment page.document
  ({ page with document := state.document, environment := state.environment }, state.report)

/-- Binds a listener to an element, as `Document.bind?` does. -/
def bind? (page : Page) (id : ElementId) (handle : Handle) : Option Page :=
  (page.document.bind? id handle).map ({ page with document := · })

/-- Clicks an element: its handler runs in the element's own chain.  The report is
absent if the element has no handler. -/
def click (page : Page) (id : ElementId) : Except Failure (Page × Option Report) :=
  match page.document.find? id with
  | none => .error (.unknownElement id)
  | some element =>
      match element.clickHandler? with
      | none => .ok (page, none)
      | some handler =>
          let (after, report) := page.runScript handler element.chain
          .ok (after, some report)

/-- The line that shows an element: its kind, its identity, its text and its style.
Elements without visible text, markers and the title have none. -/
def line? (page : Page) (element : Element) : Option String :=
  if element.kind.isMarker || element.kind.tagName? == some "title" then none
  else do
    let text ← element.text
    match Text.trim text.toList with
    | [] => none
    | visible =>
        let style := (page.computedStyle element).describe
        some (element.kind.shown ++ " " ++ element.id.shown ++ ": " ++ String.ofList visible ++
          (if style.isEmpty then "" else " [" ++ style ++ "]"))

/-- The lines that show the elements of a page. -/
def contentLines (page : Page) : List String :=
  page.document.elements.filterMap page.line?

end Page
end Pagelet
