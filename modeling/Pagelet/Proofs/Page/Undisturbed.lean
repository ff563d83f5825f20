import Pagelet.Proofs.Document.Unscripted
import Pagelet.Proofs.Page.Preorder

/-!
# Scripts do not disturb the markup

Two assemblies may take the same tokens and treat the scripts among them differently.  They
agree in all that comes of the markup all the same: every token keeps the relation below,
in which an open tag is known by the place of its element, not by the index that scripts shift.
-/

namespace Pagelet
namespace Page

open Document (Draft Element)
open Markup (Attributes Token)

namespace Assembly

/-- The tag, with the place of its element among those of the markup. -/
def placeTag (assembly : Assembly) (tag : OpenTag) : OpenTag :=
  { tag with index := assembly.document.place tag.index }

/-- The open tags belong to elements of the markup. -/
def Anchored (assembly : Assembly) : Prop :=
  ∀ tag ∈ assembly.openTags, assembly.document.Anchors tag.index

/-- The two assemblies differ only by what scripts did. -/
structure SameMarkup (left right : Assembly) : Prop where
  /-- The rules of the sheets are the same. -/
  rules_eq : right.rules = left.rules
  /-- The styles of the tags are the same. -/
  styles_eq : right.styles = left.styles
  /-- Text is for the same. -/
  mode_eq : right.mode = left.mode
  /-- The elements of the markup are the same. -/
  markup_eq : right.document.markup = left.document.markup
  /-- The same tags are open, with their elements at the same places. -/
  openTags_eq : right.openTags.map right.placeTag = left.openTags.map left.placeTag
  /-- The open tags on the left belong to elements of the markup. -/
  anchored_left : left.Anchored
  /-- The open tags on the right belong to elements of the markup. -/
  anchored_right : right.Anchored

variable {left right : Assembly} {draft : Draft}

/-- The open tags of an assembly belong to elements of its markup, one and all. -/
theorem Anchored.of_cons {assembly : Assembly} {tag : OpenTag} {outer : List OpenTag}
    (anchored : assembly.Anchored) (inside : assembly.openTags = tag :: outer) :
    assembly.document.Anchors tag.index ∧
      ∀ other ∈ outer, assembly.document.Anchors other.index := by
  rw [Anchored, inside] at anchored
  exact List.forall_mem_cons.1 anchored

/-- A document whose places are those of another leaves the open tags where they are. -/
theorem map_placeTag_eq {before after : Assembly} {tags : List OpenTag}
    (places : ∀ tag ∈ tags, after.document.place tag.index = before.document.place tag.index) :
    tags.map after.placeTag = tags.map before.placeTag :=
  List.map_congr_left fun tag member => by rw [placeTag, placeTag, places tag member]

namespace SameMarkup

theorem refl {assembly : Assembly} (anchored : assembly.Anchored) : SameMarkup assembly assembly :=
  ⟨rfl, rfl, rfl, rfl, rfl, anchored, anchored⟩

theorem symm (same : SameMarkup left right) : SameMarkup right left where
  rules_eq := same.rules_eq.symm
  styles_eq := same.styles_eq.symm
  mode_eq := same.mode_eq.symm
  markup_eq := same.markup_eq.symm
  openTags_eq := same.openTags_eq.symm
  anchored_left := same.anchored_right
  anchored_right := same.anchored_left

/-- Elements that are added on both sides get the same chain. -/
theorem chain_eq (same : SameMarkup left right) : right.chain = left.chain := by
  have styles := congrArg (fun tags => (tags.map (·.style)).reverse) same.openTags_eq
  simpa [chain, placeTag, Function.comp_def] using styles

theorem setMode (same : SameMarkup left right) (mode : Mode) :
    SameMarkup { left with mode } { right with mode } :=
  { same with mode_eq := rfl }

/-- The same element may be added on both sides. -/
theorem add (same : SameMarkup left right) (draft : Draft) :
    SameMarkup { left with document := left.document.add draft }
      { right with document := right.document.add draft } where
  rules_eq := same.rules_eq
  styles_eq := same.styles_eq
  mode_eq := same.mode_eq
  markup_eq := by rw [Document.markup_add, Document.markup_add, same.markup_eq]
  openTags_eq := by
    have stays {assembly : Assembly} (anchored : assembly.Anchored) :
        assembly.openTags.map
            (placeTag { assembly with document := assembly.document.add draft }) =
          assembly.openTags.map assembly.placeTag :=
      map_placeTag_eq fun tag member =>
        Document.place_add (Nat.le_of_lt (anchored tag member).lt_size) draft
    exact (stays same.anchored_right).trans (same.openTags_eq.trans (stays same.anchored_left).symm)
  anchored_left tag member := (same.anchored_left tag member).add draft
  anchored_right tag member := (same.anchored_right tag member).add draft

/-- A line may be broken on both sides. -/
theorem breakLine (same : SameMarkup left right) :
    SameMarkup left.breakLine right.breakLine := by
  rw [Assembly.breakLine, Assembly.breakLine, same.chain_eq]
  exact same.add _

/-- The element that was added last may be that of a new open tag. -/
theorem openLast (same : SameMarkup left right) (isMarkup : draft.kind ≠ .text) (name : String)
    (style : Style.StyleRef) :
    SameMarkup
      { left with
        document := left.document.add draft
        openTags := { name, style, index := left.document.size } :: left.openTags }
      { right with
        document := right.document.add draft
        openTags := { name, style, index := right.document.size } :: right.openTags } where
  rules_eq := same.rules_eq
  styles_eq := same.styles_eq
  mode_eq := same.mode_eq
  markup_eq := (same.add draft).markup_eq
  openTags_eq := by
    have places : right.document.place right.document.size =
        left.document.place left.document.size := by
      rw [Document.place_size, Document.place_size, same.markup_eq]
    refine List.cons_eq_cons.2 ⟨?_, (same.add draft).openTags_eq⟩
    simp only [placeTag, Document.place_add (Nat.le_refl _), places]
  anchored_left :=
    List.forall_mem_cons.2 ⟨Document.anchors_size_add _ isMarkup, (same.add draft).anchored_left⟩
  anchored_right :=
    List.forall_mem_cons.2 ⟨Document.anchors_size_add _ isMarkup, (same.add draft).anchored_right⟩

theorem pushStyle (same : SameMarkup left right) (properties : Style.Properties) :
    SameMarkup { left with styles := left.styles.push properties }
      { right with styles := right.styles.push properties } :=
  { same with styles_eq := by rw [same.styles_eq] }

/-- The same element may be opened on both sides. -/
theorem openElement (same : SameMarkup left right) (name : String) (attributes : Attributes)
    (selfClosing : Bool) :
    SameMarkup (left.openElement name attributes selfClosing)
      (right.openElement name attributes selfClosing) := by
  have styled := same.pushStyle (left.rules.resolve name attributes)
  unfold Assembly.openElement
  rw [same.rules_eq, same.chain_eq, same.styles_eq] at *
  split
  · exact styled.add _
  · exact styled.openLast (by simp) name _

theorem startTag (same : SameMarkup left right) (name : String) (attributes : Attributes)
    (selfClosing : Bool) :
    SameMarkup (left.startTag name attributes selfClosing)
      (right.startTag name attributes selfClosing) := by
  unfold Assembly.startTag
  repeat' split
  · exact same
  · exact same.setMode _
  · exact same
  · exact same.setMode _
  · exact same.breakLine
  · exact same.openElement name attributes selfClosing

/-- Either no tag is open on either side, or the innermost ones stand at the same place. -/
theorem openTags_cases (same : SameMarkup left right) :
    left.openTags = [] ∧ right.openTags = [] ∨
      ∃ leftTag leftOuter rightTag rightOuter,
        left.openTags = leftTag :: leftOuter ∧ right.openTags = rightTag :: rightOuter ∧
          right.placeTag rightTag = left.placeTag leftTag ∧
            rightOuter.map right.placeTag = leftOuter.map left.placeTag := by
  have tags := same.openTags_eq
  cases onLeft : left.openTags with
  | nil =>
      rw [onLeft, List.map_nil, List.map_eq_nil_iff] at tags
      exact .inl ⟨rfl, tags⟩
  | cons leftTag leftOuter =>
      rw [onLeft, List.map_cons, List.map_eq_cons_iff] at tags
      obtain ⟨rightTag, rightOuter, onRight, first, others⟩ := tags
      exact .inr ⟨leftTag, leftOuter, rightTag, rightOuter, rfl, onRight, first, others⟩

/-- The innermost tag may be closed on both sides. -/
theorem closeLast (same : SameMarkup left right) {leftTag rightTag : OpenTag}
    {leftOuter rightOuter : List OpenTag} (onLeft : left.openTags = leftTag :: leftOuter)
    (onRight : right.openTags = rightTag :: rightOuter)
    (others : rightOuter.map right.placeTag = leftOuter.map left.placeTag) :
    SameMarkup { left with openTags := leftOuter } { right with openTags := rightOuter } :=
  { same with
    openTags_eq := others
    anchored_left := (same.anchored_left.of_cons onLeft).2
    anchored_right := (same.anchored_right.of_cons onRight).2 }

theorem closeElement (same : SameMarkup left right) (name : String) :
    SameMarkup (left.closeElement name) (right.closeElement name) := by
  obtain ⟨onLeft, onRight⟩ | ⟨leftTag, leftOuter, rightTag, rightOuter, onLeft, onRight, first,
    others⟩ := same.openTags_cases
  · simpa only [Assembly.closeElement, onLeft, onRight] using same
  · have closed := same.closeLast onLeft onRight others
    have nameEq : rightTag.name = leftTag.name := (congrArg OpenTag.name first :)
    have chainEq := closed.chain_eq
    simp only [Assembly.closeElement, onLeft, onRight, nameEq, chainEq]
    split
    · split
      · exact closed.add _
      · exact closed
    · exact same

/-- Content may go to the elements at the same place. -/
theorem append (same : SameMarkup left right) {leftIndex rightIndex : Nat}
    (places : right.document.place rightIndex = left.document.place leftIndex)
    (leftAnchors : left.document.Anchors leftIndex)
    (rightAnchors : right.document.Anchors rightIndex) (fragment : String) (separated : Bool) :
    SameMarkup { left with document := left.document.append leftIndex fragment separated }
      { right with document := right.document.append rightIndex fragment separated } where
  rules_eq := same.rules_eq
  styles_eq := same.styles_eq
  mode_eq := same.mode_eq
  markup_eq := by
    rw [Document.markup_append leftAnchors, Document.markup_append rightAnchors, same.markup_eq,
      places]
  openTags_eq := by
    have stays (assembly : Assembly) (index : Nat) :
        assembly.openTags.map (placeTag { assembly with
            document := assembly.document.append index fragment separated }) =
          assembly.openTags.map assembly.placeTag :=
      map_placeTag_eq fun _ _ => Document.place_append ..
    exact (stays right _).trans (same.openTags_eq.trans (stays left _).symm)
  anchored_left tag member := (same.anchored_left tag member).append ..
  anchored_right tag member := (same.anchored_right tag member).append ..

/-- The innermost tags may note the same about blanks. -/
theorem notePending (same : SameMarkup left right) {leftTag rightTag : OpenTag}
    {leftOuter rightOuter : List OpenTag} (onLeft : left.openTags = leftTag :: leftOuter)
    (onRight : right.openTags = rightTag :: rightOuter) (pendingSpace : Bool) :
    SameMarkup { left with openTags := { leftTag with pendingSpace } :: leftOuter }
      { right with openTags := { rightTag with pendingSpace } :: rightOuter } := by
  have tags := same.openTags_eq
  rw [onLeft, onRight, List.map_cons, List.map_cons] at tags
  obtain ⟨first, others⟩ := List.cons.inj tags
  have noted := congrArg (fun tag : OpenTag => { tag with pendingSpace }) first
  have leftAnchored := same.anchored_left.of_cons onLeft
  have rightAnchored := same.anchored_right.of_cons onRight
  exact { same with
    openTags_eq := List.cons_eq_cons.2 ⟨noted, others⟩
    anchored_left := List.forall_mem_cons.2 leftAnchored
    anchored_right := List.forall_mem_cons.2 rightAnchored }

theorem addText (same : SameMarkup left right) (text : String) :
    SameMarkup (left.addText text) (right.addText text) := by
  obtain ⟨onLeft, onRight⟩ | ⟨leftTag, leftOuter, rightTag, rightOuter, onLeft, onRight, first,
    -⟩ := same.openTags_cases
  · rwa [addText_of_outside onLeft, addText_of_outside onRight]
  · have pendingEq : rightTag.pendingSpace = leftTag.pendingSpace :=
      (congrArg OpenTag.pendingSpace first :)
    cases blank : (Text.trim text.toList).isEmpty with
    | true =>
        rw [addText_of_blank onLeft blank, addText_of_blank onRight blank, pendingEq]
        exact same.notePending onLeft onRight _
    | false =>
        rw [addText_of_visible onLeft blank, addText_of_visible onRight blank, pendingEq]
        have appended := same.append (congrArg OpenTag.index first)
          (same.anchored_left.of_cons onLeft).1 (same.anchored_right.of_cons onRight).1
          (String.ofList (Text.trim text.toList))
          (leftTag.pendingSpace || Text.startsBlank text.toList)
        exact appended.notePending onLeft onRight _

/-- A script on one side alone changes nothing that comes of the markup. -/
theorem useScript (same : SameMarkup left right) (settings : Settings) (source : String) :
    SameMarkup left (Assembly.useScript settings right source) := by
  unfold Assembly.useScript
  split
  · have framed : Document.Framed right.chain right.document
        (Script.run ⟨settings.limits, right.chain⟩ source right.environment
          right.document).document :=
      (Script.admits_framed right.chain).run source right.environment right.document
    exact {
      rules_eq := same.rules_eq
      styles_eq := same.styles_eq
      mode_eq := same.mode_eq
      markup_eq := framed.markup_eq.trans same.markup_eq
      openTags_eq := by
        refine Eq.trans (map_placeTag_eq fun tag member => ?_) same.openTags_eq
        exact framed.place_eq (Nat.le_of_lt (same.anchored_right tag member).lt_size)
      anchored_left := same.anchored_left
      anchored_right := fun tag member => framed.anchors (same.anchored_right tag member) }
  · exact same

/-- The same end tag may be taken on both sides, whether or not scripts are run. -/
theorem endTag (same : SameMarkup left right) (first second : Settings) (name : String) :
    SameMarkup (Assembly.endTag first left name) (Assembly.endTag second right name) := by
  unfold Assembly.endTag
  rw [same.mode_eq]
  split
  · exact same.closeElement name
  · split
    · have rulesEq := same.rules_eq
      exact { same.setMode .markup with
        rules_eq := congrArg (fun rules : Style.RuleTable => (rules.addSheet _).1) rulesEq }
    · exact same
  · split
    · exact (((same.setMode .markup).useScript second _).symm.useScript first _).symm
    · exact same
  · split
    · exact same.setMode .markup
    · exact same

theorem takeText (same : SameMarkup left right) (text : String) :
    SameMarkup (left.takeText text) (right.takeText text) := by
  unfold Assembly.takeText
  rw [same.mode_eq]
  split
  · exact same.addText text
  · exact same.setMode _
  · exact same.setMode _
  · exact same

/-- The same token may be taken on both sides, whether or not scripts are run. -/
theorem take (same : SameMarkup left right) (first second : Settings) (token : Token) :
    SameMarkup (Assembly.take first left token) (Assembly.take second right token) := by
  cases token with
  | start name attributes selfClosing =>
      simp only [Assembly.take, same.mode_eq]
      split
      · exact same.startTag name attributes selfClosing
      · exact same
  | finish name => exact same.endTag first second name
  | text content => exact same.takeText content

/-- Whole runs of tokens keep what comes of the markup the same, whatever the settings. -/
theorem foldl_take (same : SameMarkup left right) (first second : Settings) (tokens : List Token) :
    SameMarkup (tokens.foldl (Assembly.take first) left)
      (tokens.foldl (Assembly.take second) right) := by
  induction tokens generalizing left right with
  | nil => exact same
  | cons token rest ih => exact ih (same.take first second token)

end SameMarkup

/-! ## Without scripts -/

/-- No element is text that a script wrote, and none has a text or a handler that a script
set. -/
def Untouched (assembly : Assembly) : Prop :=
  ∀ element ∈ assembly.document.elements, element.markup? = some element.unnumbered

namespace Untouched

variable {assembly : Assembly}

/-- An element of the markup comes without what scripts set. -/
theorem add (untouched : assembly.Untouched) (isMarkup : draft.kind ≠ .text)
    (noOverride : draft.textOverride = none) :
    Untouched { assembly with document := assembly.document.add draft } := by
  refine List.forall_mem_append.2 ⟨untouched, List.forall_mem_singleton.2 ?_⟩
  rw [Element.markup?, if_neg (show (assembly.document.realize draft).kind ≠ .text from isMarkup)]
  simp only [Element.unscripted, Element.unnumbered, Document.realize, noOverride]

theorem append (untouched : assembly.Untouched) (index : Nat) (fragment : String)
    (separated : Bool) :
    Untouched { assembly with document := assembly.document.append index fragment separated } := by
  intro element member
  obtain ⟨place, found⟩ := List.mem_iff_getElem?.1 member
  rw [Document.append_eq, List.getElem?_modify] at found
  obtain ⟨old, there, rfl⟩ := Option.map_eq_some_iff.1 found
  have before := untouched old (List.mem_of_getElem? there)
  split
  · rw [Element.markup?_append, before]
    rfl
  · exact before

/-- A start tag adds elements of the markup alone. -/
theorem startTag (untouched : assembly.Untouched) (name : String) (attributes : Attributes)
    (selfClosing : Bool) : (assembly.startTag name attributes selfClosing).Untouched := by
  unfold Assembly.startTag
  repeat' split
  all_goals first | exact untouched | exact untouched.add (by simp) rfl

theorem closeElement (untouched : assembly.Untouched) (name : String) :
    (assembly.closeElement name).Untouched := by
  unfold Assembly.closeElement
  repeat' split
  all_goals first | exact untouched | exact untouched.add (by simp) rfl

theorem addText (untouched : assembly.Untouched) (text : String) :
    (assembly.addText text).Untouched := by
  cases inside : assembly.openTags with
  | nil => rwa [addText_of_outside inside]
  | cons tag outer =>
      cases blank : (Text.trim text.toList).isEmpty with
      | true =>
          rw [addText_of_blank inside blank]
          exact untouched
      | false =>
          rw [addText_of_visible inside blank]
          exact untouched.append tag.index _ _

/-- Without scripts every token leaves the elements as the markup has them. -/
theorem take (untouched : assembly.Untouched) (settings : Settings)
    (plain : settings.executeScripts = false) (token : Token) :
    (Assembly.take settings assembly token).Untouched := by
  have unused (assembly : Assembly) (source : String) :
      Assembly.useScript settings assembly source = assembly := by
    simp [useScript, plain]
  cases token with
  | start name attributes selfClosing =>
      simp only [Assembly.take]
      split
      · exact untouched.startTag name attributes selfClosing
      · exact untouched
  | finish name =>
      simp only [Assembly.take, endTag, unused]
      split
      · exact untouched.closeElement name
      all_goals split <;> exact untouched
  | text content =>
      simp only [Assembly.take, takeText]
      split
      · exact untouched.addText content
      all_goals exact untouched

/-- Without scripts any tokens leave the elements as the markup has them. -/
theorem foldl_take (untouched : assembly.Untouched) (settings : Settings)
    (plain : settings.executeScripts = false) (tokens : List Token) :
    (tokens.foldl (Assembly.take settings) assembly).Untouched := by
  induction tokens generalizing assembly with
  | nil => exact untouched
  | cons token rest ih => exact ih (untouched.take settings plain token)

/-- Where scripts touched nothing, the markup is the whole document. -/
theorem markup_eq (untouched : assembly.Untouched) :
    assembly.document.markup = assembly.document.elements.map Element.unnumbered := by
  rw [Document.markup, ← List.filterMap_eq_map]
  exact List.filterMap_congr untouched

end Untouched

end Assembly

/-- Whether the scripts of a page run makes no difference to the rules of its sheets, to the
styles of its tags, and to its elements: without the text that scripts wrote, what they set
on elements, and the numbers of elements that have no id, the elements are those of the page
without scripts. -/
theorem parse_undisturbed (limits : Script.Limits) (markup : String) :
    let scripted := parse { executeScripts := true, limits } markup
    let plain := parse { executeScripts := false, limits } markup
    scripted.rules = plain.rules ∧ scripted.styles = plain.styles ∧
      (scripted.document.elements.filter (·.kind ≠ .text)).map Element.unscripted =
        plain.document.elements.map Element.unnumbered := by
  intro scripted plain
  let tokens := Token.ofMarkup markup
  have begun : Assembly.SameMarkup {} {} := .refl nofun
  have same : Assembly.SameMarkup (.ofTokens { executeScripts := true, limits } tokens)
      (.ofTokens { executeScripts := false, limits } tokens) :=
    begun.foldl_take _ _ tokens
  have empty : Assembly.Untouched {} := nofun
  have untouched : (Assembly.ofTokens { executeScripts := false, limits } tokens).Untouched :=
    empty.foldl_take _ rfl tokens
  have elements := same.markup_eq.symm.trans untouched.markup_eq
  rw [Document.markup_eq_map_filter] at elements
  exact ⟨same.rules_eq.symm, same.styles_eq.symm, elements⟩

end Page
end Pagelet
