import Pagelet.Markup.Token.Scan
import Pagelet.Script.Run

/-!
# Assembling a page from tokens

Tokens are taken one at a time.  A start tag adds an element and opens it, unless
it can have no end tag; an end tag closes the innermost open tag if it has its
name, and is passed over otherwise; text goes to the innermost open tag.  Between
the tags of a style sheet or a script the text is gathered, and used when the end
tag comes.
-/

namespace Pagelet
namespace Page

open Document (Draft)
open Markup (Attributes Token)
open Script (Environment Limits Report)
open Style (ResolvedStyles RuleTable StyleRef)

/-- How a page is read. -/
structure Settings where
  /-- Whether scripts of the page run. -/
  executeScripts : Bool := true
  /-- The limits of every run. -/
  limits : Limits := {}
deriving DecidableEq, Repr, Inhabited

/-- A start tag that waits for its end tag. -/
structure OpenTag where
  /-- The name of the tag. -/
  name : String
  /-- The resolved style of the tag. -/
  style : StyleRef
  /-- The index of the element of the tag. -/
  index : Nat
  /-- Whether blanks came after the last text of the element. -/
  pendingSpace : Bool := false
deriving DecidableEq, Repr

/-- What text between tags is for. -/
inductive Mode
  /-- Text is content of the page. -/
  | markup
  /-- Text belongs to a style sheet, of which this much has been read. -/
  | sheet (gathered : String)
  /-- Text belongs to a script, of which this much has been read. -/
  | script (gathered : String)
  /-- Text belongs to a script whose source lies elsewhere. -/
  | external
deriving DecidableEq, Repr

/-- A page in the making. -/
structure Assembly where
  /-- The elements so far. -/
  document : Document := .fresh
  /-- The style rules so far. -/
  rules : RuleTable := {}
  /-- The styles of the tags so far. -/
  styles : ResolvedStyles := {}
  /-- What the scripts so far have left behind. -/
  environment : Environment := {}
  /-- The report of the scripts so far. -/
  report : Report := {}
  /-- The open tags, the innermost first. -/
  openTags : List OpenTag := []
  /-- What text is for. -/
  mode : Mode := .markup

/-- The tags whose end starts a new line. -/
def blockNames : List String :=
  ["h1", "h2", "h3", "h4", "h5", "h6", "p", "div", "li", "button"]

namespace Assembly

/-- The style references of the open tags, the innermost last. -/
def chain (assembly : Assembly) : List StyleRef :=
  (assembly.openTags.map (·.style)).reverse

/-- The id of the element of a tag: the first `id` attribute that is not empty. -/
def explicitId? (attributes : Attributes) : Option String :=
  (attributes.find? fun (name, value) => name == "id" && !value.isEmpty).map Prod.snd

/-- Adds a line break. -/
def breakLine (assembly : Assembly) : Assembly :=
  { assembly with
    document := assembly.document.add { kind := .lineBreak, chain := assembly.chain } }

/-- Adds the element of a start tag, and opens the tag if it can have an end tag. -/
def openElement (assembly : Assembly) (name : String) (attributes : Attributes)
    (selfClosing : Bool) : Assembly :=
  let style := assembly.styles.nextRef
  let draft : Draft :=
    { kind := .tag name
      attributes
      chain := assembly.chain ++ [style]
      explicitId := explicitId? attributes }
  { assembly with
    styles := assembly.styles.push (assembly.rules.resolve name attributes)
    document := assembly.document.add draft
    openTags :=
      if selfClosing || Markup.isVoid name then assembly.openTags
      else { name, style, index := assembly.document.size } :: assembly.openTags }

/-- What the text after the start tag of a script is for. -/
def scriptMode (attributes : Attributes) : Mode :=
  if attributes.any (·.1 == "src") then .external else .script ""

/-- Takes a start tag in running markup. -/
def startTag (assembly : Assembly) (name : String) (attributes : Attributes)
    (selfClosing : Bool) : Assembly :=
  if name = "style" then
    if selfClosing then assembly else { assembly with mode := .sheet "" }
  else if name = "script" then
    if selfClosing then assembly else { assembly with mode := scriptMode attributes }
  else if name = "br" then assembly.breakLine
  else assembly.openElement name attributes selfClosing

/-- Closes the innermost open tag if it has this name. -/
def closeElement (assembly : Assembly) (name : String) : Assembly :=
  match assembly.openTags with
  | [] => assembly
  | tag :: outer =>
      if tag.name = name then
        let closed := { assembly with openTags := outer }
        if blockNames.contains name then
          { closed with
            document := closed.document.add { kind := .blockEnd name, chain := closed.chain } }
        else closed
      else assembly

/-- Adds the rules of a style sheet. -/
def useSheet (assembly : Assembly) (sheet : String) : Assembly :=
  { assembly with rules := (assembly.rules.addSheet sheet).1 }

/-- Runs a script in the context of the open tags, if scripts are to run. -/
def useScript (settings : Settings) (assembly : Assembly) (source : String) : Assembly :=
  if settings.executeScripts then
    let state := Script.run ⟨settings.limits, assembly.chain⟩ source assembly.environment
      assembly.document
    { assembly with
      document := state.document
      environment := state.environment
      report := assembly.report.append state.report }
  else assembly

/-- Takes an end tag. -/
def endTag (settings : Settings) (assembly : Assembly) (name : String) : Assembly :=
  match assembly.mode with
  | .markup => assembly.closeElement name
  | .sheet gathered =>
      if name = "style" then { assembly with mode := .markup }.useSheet gathered else assembly
  | .script gathered =>
      if name = "script" then useScript settings { assembly with mode := .markup } gathered
      else assembly
  | .external => if name = "script" then { assembly with mode := .markup } else assembly

/-- Gives text to the innermost open tag.  Blanks at its ends only keep it apart
from its neighbours; text outside every tag is dropped. -/
def addText (assembly : Assembly) (text : String) : Assembly :=
  match assembly.openTags with
  | [] => assembly
  | tag :: outer =>
      let chars := text.toList
      let trimmed := Text.trim chars
      if trimmed.isEmpty then
        let pendingSpace := tag.pendingSpace || !chars.isEmpty
        { assembly with openTags := { tag with pendingSpace } :: outer }
      else
        let separated := tag.pendingSpace || Text.startsBlank chars
        { assembly with
          document := assembly.document.append tag.index (String.ofList trimmed) separated
          openTags := { tag with pendingSpace := Text.endsBlank chars } :: outer }

/-- Takes a run of text. -/
def takeText (assembly : Assembly) (text : String) : Assembly :=
  match assembly.mode with
  | .markup => assembly.addText text
  | .sheet gathered => { assembly with mode := .sheet (gathered ++ text) }
  | .script gathered => { assembly with mode := .script (gathered ++ text) }
  | .external => assembly

/-- Takes one token.  Between the tags of a sheet or a script, start tags mean
nothing. -/
def take (settings : Settings) (assembly : Assembly) : Token → Assembly
  | .start name attributes selfClosing =>
      match assembly.mode with
      | .markup => assembly.startTag name attributes selfClosing
      | _ => assembly
  | .finish name => endTag settings assembly name
  | .text content => assembly.takeText content

/-- Takes the tokens of a whole page. -/
def ofTokens (settings : Settings) (tokens : List Token) : Assembly :=
  tokens.foldl (take settings) {}

end Assembly

end Page
end Pagelet
