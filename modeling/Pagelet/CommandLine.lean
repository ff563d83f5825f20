import Pagelet.Encoding.Declaration
import Pagelet.Page

/-!
# The command line

The program shows a page as lines of text and then clicks the elements that the
command line names, one after the other.  Every element with an id of its own has
a label, which is shown again whenever a click sets its text.
-/

namespace Pagelet
namespace CommandLine

open Document (Element ElementId Handle Notice)

/-- What the command line asks for. -/
structure Options where
  /-- The file that holds the page. -/
  path : String
  /-- The ids of the elements to click, in order. -/
  clicks : List String
deriving DecidableEq, Repr

/-- Reads the arguments that follow on those read before. -/
def parseFrom (path : Option String) (clicks : List String) :
    List String → Except Failure Options
  | [] =>
      match path with
      | some path => .ok ⟨path, clicks⟩
      | none => .error .missingPath
  | argument :: rest =>
      if argument = "--click" then
        match rest with
        | [] => .error .missingClickId
        | id :: rest => parseFrom path (clicks ++ [id]) rest
      else if argument.startsWith "--" || path.isSome then
        .error (.unexpectedArgument argument)
      else parseFrom (some argument) clicks rest

/-- Reads the arguments of a command line. -/
def parse (arguments : List String) : Except Failure Options :=
  parseFrom none [] arguments

/-- What shows the text of an element with an id of its own. -/
structure Label where
  /-- The id of the element. -/
  id : String
  /-- The listener through which the label learns of new text. -/
  handle : Handle
  /-- The text shown. -/
  text : String
  /-- Whether a text came since this was last asked. -/
  updated : Bool := false
deriving DecidableEq, Repr

namespace Label

/-- The label after a text was set on its element. -/
def setText (label : Label) (text : String) : Label :=
  { label with text, updated := true }

/-- The label after some notices, of which those for its listener concern it. -/
def hear (label : Label) (notices : List Notice) : Label :=
  ((notices.filter (·.handle == label.handle)).map (·.text)).foldl setText label

/-- Asks whether a text came since this was last asked. -/
def takeUpdated (label : Label) : Label × Bool :=
  ({ label with updated := false }, label.updated)

/-- The line that shows the label. -/
def line (label : Label) : String :=
  (ElementId.explicit label.id).shown ++ " = " ++ label.text

end Label

/-- A page and the labels of its elements. -/
structure Display where
  /-- The page. -/
  page : Page
  /-- The labels, in the order of their elements. -/
  labels : List Label := []

/-- Gives an element a label, if it has an id of its own that no label has yet. -/
def Display.addLabel (display : Display) (element : Element) : Display :=
  match element.id with
  | .generated _ => display
  | .explicit id =>
      let handle : Handle := ⟨display.labels.length⟩
      match display.page.bind? (.explicit id) handle with
      | some page => ⟨page, display.labels ++ [{ id, handle, text := element.text.getD "" }]⟩
      | none => display

/-- Shows a page, with a label for every id. -/
def Display.ofPage (page : Page) : Display :=
  page.document.elements.foldl Display.addLabel { page }

/-- The lines for the outcome of a click. -/
def outcomeLines : Option Script.Report → List String
  | some report => report.lines
  | none => ["(no handler)"]

/-- Clicks an element: the display after it, and the lines to print. -/
def Display.click (display : Display) (id : String) : Display × List String :=
  let target : ElementId := .explicit id
  let heading := "-- click " ++ target.shown
  match display.page.click target with
  | .error _ => (display, [heading, "(unknown element)"])
  | .ok (page, report) =>
      let notices := page.document.notices.drop display.page.document.notices.length
      let labels := display.labels.map (·.hear notices)
      (⟨page, labels.map (·.takeUpdated.1)⟩,
        heading :: outcomeLines report ++ (labels.filter (·.takeUpdated.2)).map (·.line))

/-- Clicks elements one after the other, gathering the lines to print. -/
def Display.clickAll : Display → List String → List String
  | _, [] => []
  | display, id :: rest =>
      let (after, lines) := display.click id
      lines ++ after.clickAll rest

/-- The lines that show a page as it was read. -/
def pageLines (page : Page) : List String :=
  (page.document.title?.map fun title => "== " ++ title ++ " ==").toList ++
    page.contentLines ++ page.report.lines

/-- The lines that the program prints for a file with these bytes. -/
def printed (catalog : Encoding.Catalog) (bytes : List UInt8) (clicks : List String) :
    List String :=
  let display := Display.ofPage (Page.parse {} (Encoding.decodePage catalog bytes))
  pageLines display.page ++ display.clickAll clicks

/-- Runs the program: `read` gives the bytes of a file, or the system's reason for
not giving them. -/
def run {m : Type → Type} [Monad m] (catalog : Encoding.Catalog)
    (read : String → m (Except String (List UInt8))) (arguments : List String) :
    m (Except Failure (List String)) := do
  match parse arguments with
  | .error failure => return .error failure
  | .ok options =>
      match ← read options.path with
      | .error reason => return .error (.readFailed options.path reason)
      | .ok bytes => return .ok (printed catalog bytes options.clicks)

end CommandLine
end Pagelet
