import Pagelet.Proofs.Page.Forest

/-!
# The elements of nested markup

Taking the tokens of a forest adds its preorder listing to what a page holds already, and
gives its outer runs of text to the innermost tag that was open before.  The two do not
interfere, because text goes to an element that is there and the listing stands behind it.
-/

namespace Pagelet

namespace Page

open Document (Draft Element)
open Forest (tagDraft endDrafts joinBehind content?)
open Markup (Attributes Token)
open Style (RuleTable StyleRef)

namespace Assembly

variable {assembly : Assembly} {settings : Settings} {name : String} {attributes : Attributes}

/-- The assembly with these elements and the styles of these tags added. -/
def extend (assembly : Assembly) (drafts : List Draft) (tags : List (String × Attributes)) :
    Assembly :=
  { assembly with
    document := assembly.document.addAll drafts
    styles := ⟨assembly.styles.entries ++
      tags.map fun (name, attributes) => assembly.rules.resolve name attributes⟩ }

/-- The element of every open tag has been added. -/
def Placed (assembly : Assembly) : Prop :=
  ∀ index ∈ assembly.openTags.map (·.index), index < assembly.document.size

@[simp]
theorem extend_nil (assembly : Assembly) : assembly.extend [] [] = assembly := by
  simp [extend, Document.addAll]

@[simp]
theorem extend_extend (assembly : Assembly) (drafts more : List Draft)
    (tags others : List (String × Attributes)) :
    (assembly.extend drafts tags).extend more others =
      assembly.extend (drafts ++ more) (tags ++ others) := by
  simp [extend, Document.addAll]

@[simp]
theorem chain_extend (assembly : Assembly) (drafts : List Draft)
    (tags : List (String × Attributes)) : (assembly.extend drafts tags).chain = assembly.chain :=
  rfl

@[simp]
theorem size_styles_extend (assembly : Assembly) (drafts : List Draft)
    (tags : List (String × Attributes)) :
    (assembly.extend drafts tags).styles.size = assembly.styles.size + tags.length := by
  simp [extend, Style.ResolvedStyles.size]

theorem Placed.extend (placed : assembly.Placed) (drafts : List Draft)
    (tags : List (String × Attributes)) : (assembly.extend drafts tags).Placed := by
  intro index member
  have below := placed index member
  simp only [Assembly.extend, Document.size_addAll]
  omega

section Text

variable {text : String} {tag : OpenTag} {outer : List OpenTag}

/-- Text outside every tag is dropped. -/
theorem addText_of_outside (outside : assembly.openTags = []) (text : String) :
    assembly.addText text = assembly := by
  rw [addText, outside]

/-- Blanks inside a tag make a space due there. -/
theorem addText_of_blank (inside : assembly.openTags = tag :: outer)
    (blank : (Text.trim text.toList).isEmpty = true) :
    assembly.addText text =
      { assembly with
        openTags :=
          { tag with pendingSpace := tag.pendingSpace || !text.toList.isEmpty } :: outer } := by
  simp [addText, inside, blank]

/-- Visible text inside a tag is trimmed and goes to its element, behind a space where one is
due. -/
theorem addText_of_visible (inside : assembly.openTags = tag :: outer)
    (visible : (Text.trim text.toList).isEmpty = false) :
    assembly.addText text =
      { assembly with
        document := assembly.document.append tag.index (String.ofList (Text.trim text.toList))
          (tag.pendingSpace || Text.startsBlank text.toList)
        openTags := { tag with pendingSpace := Text.endsBlank text.toList } :: outer } := by
  simp [addText, inside, visible]

/-- Text changes elements that are there, and what the open tags note about blanks. -/
theorem addText_frame (assembly : Assembly) (text : String) :
    ∃ document openTags, assembly.addText text = { assembly with document, openTags } ∧
      document.size = assembly.document.size ∧
        openTags.map (fun tag => (tag.style, tag.index)) =
          assembly.openTags.map fun tag => (tag.style, tag.index) := by
  cases inside : assembly.openTags with
  | nil =>
      refine ⟨assembly.document, [], ?_, rfl, rfl⟩
      rw [addText_of_outside inside, ← inside]
  | cons tag outer =>
      cases blank : (Text.trim text.toList).isEmpty with
      | true => exact ⟨assembly.document, _, addText_of_blank inside blank, rfl, rfl⟩
      | false =>
          exact ⟨_, _, addText_of_visible inside blank, List.length_modify .., rfl⟩

@[simp]
theorem styles_addText (assembly : Assembly) (text : String) :
    (assembly.addText text).styles = assembly.styles := by
  obtain ⟨document, openTags, same, -⟩ := addText_frame assembly text
  rw [same]

@[simp]
theorem mode_addText (assembly : Assembly) (text : String) :
    (assembly.addText text).mode = assembly.mode := by
  obtain ⟨document, openTags, same, -⟩ := addText_frame assembly text
  rw [same]

@[simp]
theorem chain_addText (assembly : Assembly) (text : String) :
    (assembly.addText text).chain = assembly.chain := by
  obtain ⟨document, openTags, same, -, tags⟩ := addText_frame assembly text
  have styles := congrArg (List.map Prod.fst) tags
  simp only [List.map_map, Function.comp_def] at styles
  rw [same, chain, chain, styles]

/-- Text leaves the open tags at their elements. -/
theorem Placed.addText (placed : assembly.Placed) (text : String) :
    (assembly.addText text).Placed := by
  obtain ⟨document, openTags, same, size, tags⟩ := addText_frame assembly text
  have indices := congrArg (List.map Prod.snd) tags
  simp only [List.map_map, Function.comp_def] at indices
  rw [same]
  intro index member
  rw [indices] at member
  exact size ▸ placed index member

/-- Elements that are added do not keep text from an element that is there. -/
theorem addText_extend (placed : assembly.Placed) (drafts : List Draft)
    (tags : List (String × Attributes)) (text : String) :
    (assembly.extend drafts tags).addText text = (assembly.addText text).extend drafts tags := by
  cases inside : assembly.openTags with
  | nil =>
      have outside : (assembly.extend drafts tags).openTags = [] := inside
      rw [addText_of_outside inside, addText_of_outside outside]
  | cons tag outer =>
      have insideToo : (assembly.extend drafts tags).openTags = tag :: outer := inside
      cases blank : (Text.trim text.toList).isEmpty with
      | true =>
          rw [addText_of_blank inside blank, addText_of_blank insideToo blank]
          rfl
      | false =>
          have below : tag.index < assembly.document.size := placed tag.index (by simp [inside])
          rw [addText_of_visible inside blank, addText_of_visible insideToo blank]
          simp only [extend, Document.append_addAll below]

/-- Text for a tag that was open does not depend on what is added behind its element. -/
theorem foldl_addText_extend (placed : assembly.Placed) (drafts : List Draft)
    (tags : List (String × Attributes)) (texts : List String) :
    texts.foldl addText (assembly.extend drafts tags) =
      (texts.foldl addText assembly).extend drafts tags := by
  induction texts generalizing assembly with
  | nil => rfl
  | cons text rest ih =>
      rw [List.foldl_cons, List.foldl_cons, addText_extend placed]
      exact ih (placed.addText text)

theorem foldl_addText_of_outside (outside : assembly.openTags = []) (texts : List String) :
    texts.foldl addText assembly = assembly := by
  induction texts with
  | nil => rfl
  | cons text rest ih => rw [List.foldl_cons, addText_of_outside outside, ih]

end Text

/-- The assembly with the element of a start tag added and its tag open. -/
def opened (assembly : Assembly) (name : String) (attributes : Attributes)
    (content : Option String) (pendingSpace : Bool) : Assembly :=
  { assembly.extend [tagDraft name attributes content assembly.chain assembly.styles.size]
      [(name, attributes)] with
    openTags :=
      { name, style := assembly.styles.nextRef, index := assembly.document.size, pendingSpace } ::
        assembly.openTags }

theorem Placed.opened (placed : assembly.Placed) (content : Option String)
    (pendingSpace : Bool) : (assembly.opened name attributes content pendingSpace).Placed := by
  have added : (assembly.opened name attributes content pendingSpace).document.size =
      assembly.document.size + 1 :=
    Document.size_addAll _
  refine List.forall_mem_cons.2 ⟨?_, fun index member => ?_⟩
  · rw [added]
    exact Nat.lt_succ_self _
  · rw [added]
    exact Nat.lt_succ_of_lt (placed index member)

@[simp]
theorem chain_opened (content : Option String) (pendingSpace : Bool) :
    (assembly.opened name attributes content pendingSpace).chain =
      assembly.chain ++ [⟨assembly.styles.size⟩] := by
  simp [opened, chain, Style.ResolvedStyles.nextRef]

@[simp]
theorem size_styles_opened (content : Option String) (pendingSpace : Bool) :
    (assembly.opened name attributes content pendingSpace).styles.size =
      assembly.styles.size + 1 := by
  simp [opened]

/-- Blanks in a tag that just opened make a space due. -/
theorem addText_opened_of_blank {text : String} {content : Option String} {pendingSpace : Bool}
    (blank : (Text.trim text.toList).isEmpty = true) (notEmpty : text ≠ "") :
    (assembly.opened name attributes content pendingSpace).addText text =
      assembly.opened name attributes content true := by
  rw [addText_of_blank rfl blank]
  simp [opened, notEmpty]

/-- Text that is not blank goes to the element of the open container. -/
theorem addText_opened_of_visible {text : String} {content : Option String}
    {pendingSpace : Bool} (visible : (Text.trim text.toList).isEmpty = false) :
    (assembly.opened name attributes content pendingSpace).addText text =
      let draft := tagDraft name attributes content assembly.chain assembly.styles.size
      let fragment := String.ofList (Text.trim text.toList)
      let separated := pendingSpace || Text.startsBlank text.toList
      assembly.opened name attributes
        ((assembly.document.realize draft).append fragment separated).content
        (Text.endsBlank text.toList) := by
  rw [addText_of_visible rfl visible]
  simp only [opened, extend, Document.addAll, List.foldl_cons, List.foldl_nil,
    Document.append_size_add]
  rfl

/-- Runs of text behind content of the open container. -/
theorem foldl_addText_opened_some {texts : List String} (notEmpty : ∀ text ∈ texts, text ≠ "")
    {content : String} (begun : content ≠ "") (pendingSpace : Bool) :
    ∃ last, texts.foldl addText (assembly.opened name attributes (some content) pendingSpace) =
      assembly.opened name attributes (some (content ++ joinBehind pendingSpace texts)) last := by
  induction texts generalizing content pendingSpace with
  | nil => exact ⟨pendingSpace, by simp [joinBehind]⟩
  | cons text rest ih =>
      obtain ⟨textNotEmpty, restNotEmpty⟩ := List.forall_mem_cons.1 notEmpty
      cases blank : (Text.trim text.toList).isEmpty with
      | true =>
          rw [List.foldl_cons, addText_opened_of_blank blank textNotEmpty,
            Forest.joinBehind_of_blank blank]
          exact ih restNotEmpty begun true
      | false =>
          let grown := content ++
            (if pendingSpace || Text.startsBlank text.toList then " " else "") ++
              String.ofList (Text.trim text.toList)
          have appended :
              (assembly.opened name attributes (some content) pendingSpace).addText text =
                assembly.opened name attributes (some grown) (Text.endsBlank text.toList) := by
            rw [addText_opened_of_visible blank]
            simp [Document.realize, tagDraft, Element.append, begun, grown]
          have grownNotEmpty : grown ≠ "" := by simp [grown, begun]
          obtain ⟨last, joined⟩ := ih restNotEmpty grownNotEmpty (Text.endsBlank text.toList)
          refine ⟨last, ?_⟩
          rw [List.foldl_cons, appended, joined, Forest.joinBehind_of_visible blank]
          simp only [grown, String.append_assoc]

/-- The runs of text in a container make up its content. -/
theorem foldl_addText_opened {texts : List String} (notEmpty : ∀ text ∈ texts, text ≠ "")
    (pendingSpace : Bool) :
    ∃ last, texts.foldl addText (assembly.opened name attributes none pendingSpace) =
      assembly.opened name attributes (content? texts) last := by
  induction texts generalizing pendingSpace with
  | nil => exact ⟨pendingSpace, rfl⟩
  | cons text rest ih =>
      obtain ⟨textNotEmpty, restNotEmpty⟩ := List.forall_mem_cons.1 notEmpty
      cases blank : (Text.trim text.toList).isEmpty with
      | true =>
          rw [List.foldl_cons, addText_opened_of_blank blank textNotEmpty,
            Forest.content?_of_blank blank]
          exact ih restNotEmpty true
      | false =>
          have begun : String.ofList (Text.trim text.toList) ≠ "" := by simpa using blank
          rw [List.foldl_cons, addText_opened_of_visible blank, Forest.content?_of_visible blank]
          exact foldl_addText_opened_some restNotEmpty begun (Text.endsBlank text.toList)

/-- Between tags a text is added. -/
theorem take_text (running : assembly.mode = .markup) (content : String) :
    assembly.take settings (.text content) = assembly.addText content := by
  simp [take, takeText, running]

theorem take_lineBreak (running : assembly.mode = .markup) (attributes : Attributes)
    (selfClosing : Bool) :
    assembly.take settings (.start "br" attributes selfClosing) =
      assembly.extend [{ kind := .lineBreak, chain := assembly.chain }] [] := by
  simp [take, startTag, running, breakLine, extend, Document.addAll]

/-- The start tag of an element adds its element and style. -/
theorem take_start (running : assembly.mode = .markup) (ordinary : name ∉ Markup.rawNames)
    (noBreak : name ≠ "br") (selfClosing : Bool) :
    assembly.take settings (.start name attributes selfClosing) =
      if selfClosing || Markup.isVoid name then
        assembly.extend [tagDraft name attributes none assembly.chain assembly.styles.size]
          [(name, attributes)]
      else assembly.opened name attributes none false := by
  obtain ⟨noScript, noStyle⟩ : name ≠ "script" ∧ name ≠ "style" := by
    simpa [Markup.rawNames] using ordinary
  have taken : assembly.take settings (.start name attributes selfClosing) =
      assembly.startTag name attributes selfClosing := by
    simp only [take, running]
  rw [taken, startTag, if_neg noStyle, if_neg noScript, if_neg noBreak, openElement]
  split <;> rfl

/-- The end tag of an open container closes it and marks its end. -/
theorem take_finish (running : assembly.mode = .markup) (content : Option String)
    (pendingSpace : Bool) (drafts : List Draft) (tags : List (String × Attributes)) :
    ((assembly.opened name attributes content pendingSpace).extend drafts tags).take settings
        (.finish name) =
      assembly.extend
        (tagDraft name attributes content assembly.chain assembly.styles.size :: drafts ++
          endDrafts name assembly.chain)
        ((name, attributes) :: tags) := by
  let inside := (assembly.opened name attributes content pendingSpace).extend drafts tags
  have taken : inside.take settings (.finish name) = inside.closeElement name := by
    have mode : inside.mode = .markup := running
    simp only [take, endTag, mode]
  have top : inside.openTags = ⟨name, assembly.styles.nextRef, assembly.document.size,
      pendingSpace⟩ :: assembly.openTags := rfl
  rw [taken, closeElement, top]
  simp only [↓reduceIte, endDrafts]
  split <;> simp [inside, opened, extend, Document.addAll, chain]

/-- Taking the tokens of the markup gives its outer text to the innermost open tag and adds
its elements and styles behind what is there. -/
def TakenInPreorder (settings : Settings) (forest : Forest) : Prop :=
  ∀ assembly : Assembly, assembly.mode = .markup → assembly.Placed →
    forest.tokens.foldl (take settings) assembly =
      (forest.texts.foldl addText assembly).extend
        (forest.outline assembly.chain assembly.styles.size) forest.tags

/-- Elements and styles that are added first stand before those of the markup. -/
theorem TakenInPreorder.behind {forest : Forest} (taken : TakenInPreorder settings forest)
    (running : assembly.mode = .markup) (placed : assembly.Placed) (drafts : List Draft)
    (tags : List (String × Attributes)) :
    forest.tokens.foldl (take settings) (assembly.extend drafts tags) =
      (forest.texts.foldl addText assembly).extend
        (drafts ++ forest.outline assembly.chain (assembly.styles.size + tags.length))
        (tags ++ forest.tags) := by
  rw [taken (assembly.extend drafts tags) running (placed.extend drafts tags),
    foldl_addText_extend placed, extend_extend, chain_extend, size_styles_extend]

/-- By induction on the forest, its tokens add its elements in preorder. -/
theorem takenInPreorder {forest : Forest} (written : forest.Written) :
    TakenInPreorder settings forest := by
  induction forest with
  | nil =>
      intro assembly _ _
      simp [Forest.tokens, Forest.texts, Forest.outline, Forest.tags]
  | container name attributes children rest inside others =>
      intro assembly running placed
      obtain ⟨⟨-, notRaw, notVoid⟩, -, childrenWritten, restWritten⟩ := written
      have noBreak : name ≠ "br" := by
        rintro rfl
        exact notVoid (by decide)
      have opens : ¬ (false || Markup.isVoid name) = true := by
        simp [Markup.isVoid, notVoid]
      obtain ⟨last, filled⟩ : ∃ last,
          children.texts.foldl addText (assembly.opened name attributes none false) =
            assembly.opened name attributes (content? children.texts) last :=
        foldl_addText_opened (Forest.ne_empty_of_mem_texts childrenWritten) false
      have content : children.tokens.foldl (take settings)
          (assembly.opened name attributes none false) =
            (assembly.opened name attributes (content? children.texts) last).extend
              (children.outline (assembly.chain ++ [⟨assembly.styles.size⟩])
                (assembly.styles.size + 1)) children.tags := by
        rw [inside childrenWritten (assembly.opened name attributes none false) running
          (placed.opened none false), filled, chain_opened, size_styles_opened]
      rw [Forest.tokens, List.foldl_cons, take_start running notRaw noBreak, if_neg opens,
        List.foldl_append, List.foldl_cons, content, take_finish running,
        (others restWritten).behind running placed]
      simp [Forest.texts, Forest.outline, Forest.tags, Nat.add_assoc, Nat.add_comm 1]
  | void name attributes selfClosing rest others =>
      intro assembly running placed
      obtain ⟨⟨-, isVoid, noBreak⟩, -, restWritten⟩ := written
      have notRaw := Forest.not_mem_rawNames_of_mem_voidNames name isVoid
      have noEnd : (selfClosing || Markup.isVoid name) = true := by
        simp [Markup.isVoid, isVoid]
      rw [Forest.tokens, List.foldl_cons, take_start running notRaw noBreak, if_pos noEnd,
        (others restWritten).behind running placed]
      rfl
  | lineBreak attributes selfClosing rest others =>
      intro assembly running placed
      obtain ⟨-, restWritten⟩ := written
      rw [Forest.tokens, List.foldl_cons, take_lineBreak running,
        (others restWritten).behind running placed]
      rfl
  | text content rest others =>
      intro assembly running placed
      obtain ⟨-, -, restWritten⟩ := written
      rw [Forest.tokens, List.foldl_cons, take_text running,
        others restWritten _ (by simpa using running) (placed.addText content), chain_addText,
        styles_addText]
      rfl

end Assembly

/-- A page with the markup of a forest has the elements of its preorder listing, in which the
elements of start tags own the resolved styles in order.  Markup in memory is always shorter
than the numbers for elements reach. -/
theorem parse_forest (settings : Settings) {forest : Forest} (written : forest.Written)
    (short : forest.markup.utf8ByteSize < Document.maxNumber) :
    let page := parse settings forest.markup
    page.document.elements = forest.listing ∧
      page.document.elements.filterMap
          (fun element => Forest.ownStyle? element.kind element.chain) =
        (List.range forest.tags.length).map StyleRef.mk ∧
      page.styles.entries =
        forest.tags.map fun (name, attributes) => RuleTable.resolve {} name attributes := by
  have taken : Assembly.ofTokens settings (Token.ofMarkup forest.markup) =
      Assembly.extend {} (forest.outline [] 0) forest.tags := by
    have outside : forest.texts.foldl Assembly.addText {} = {} :=
      Assembly.foldl_addText_of_outside rfl forest.texts
    rw [Assembly.ofTokens, Forest.ofMarkup_markup written,
      Assembly.takenInPreorder written {} rfl (List.forall_mem_nil _), outside]
    rfl
  have room : 1 + (forest.outline [] 0).length ≤ Document.maxNumber := by
    have bytes := Forest.length_outline_le_utf8ByteSize written [] 0
    omega
  have listed : (parse settings forest.markup).document.elements = forest.listing := by
    rw [parse, taken]
    exact Document.elements_addAll (Nat.le_refl 1) room
  refine ⟨listed, ?_, ?_⟩
  · rw [listed, Forest.owners_listing]
  · rw [parse, taken]
    rfl

/-- Markup with blocks in blocks, elements with and without an id, and text around them. -/
def sampleForest : Forest :=
  .text "outside" <|
  .container "div" [("class", "a"), ("id", ""), ("id", "m\"<"), ("id", "n")]
    (.text " A &amp; " <|
      .container "p" [] (.text "\n" <| .lineBreak [("id", "b")] true <| .text "B" .nil) <|
      .void "img" [("src", "x>y")] false <|
      .text "C" <|
      .container "span" [("id", "m\"<")] .nil .nil) <|
  .container "p" [] .nil .nil

example : sampleForest.listing.filterMap (·.content) = ["A &amp; C", "B"] := by
  decide

/-- The first element skips the empty id, the one behind its paragraph's children has the same id,
and the elements without one are numbered around them. -/
theorem parse_forest_sampleForest :
    (sampleForest.Written ∧ sampleForest.markup.utf8ByteSize < Document.maxNumber) ∧
      let page := parse {} sampleForest.markup
      (page.document.elements = sampleForest.listing ∧
        page.document.elements.map (·.id) =
          [.explicit "m\"<", .generated 1, .generated 2, .generated 3, .generated 4,
            .explicit "m\"<", .generated 5, .generated 6, .generated 7]) ∧
        page.document.elements.filterMap
            (fun element => Forest.ownStyle? element.kind element.chain) =
          (List.range sampleForest.tags.length).map StyleRef.mk ∧
        page.styles.entries =
          sampleForest.tags.map fun (name, attributes) => RuleTable.resolve {} name attributes := by
  have written : sampleForest.Written := by decide
  have short : sampleForest.markup.utf8ByteSize < Document.maxNumber := by decide +kernel
  obtain ⟨listed, owners, styles⟩ := parse_forest {} written short
  refine ⟨⟨written, short⟩, ⟨listed, ?_⟩, owners, styles⟩
  rw [listed]
  decide

end Page
end Pagelet
