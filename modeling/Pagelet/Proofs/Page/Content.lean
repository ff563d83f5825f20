import Pagelet.Proofs.Page.Chains
import Pagelet.Proofs.Text.Words

/-!
# Texts of tags

While a tag is the innermost open one it may be given text in many runs, with other tags, comments
and scripts between them.  The runs are trimmed and joined, and its content has the words of all
that it was given: none is lost, cut, or grown together with another.
-/

namespace Pagelet

open Document (Draft Element ElementKind Origin)
open Markup (Attributes Token)
open Style (StyleRef)
open Text (IsBlankText endsBlank startsBlank trim words)

namespace Document

/-- The content has the words of a text. -/
structure Carries (content : Option String) (text : List Char) : Prop where
  /-- The words are the same. -/
  words_eq : words (content.getD "").toList = words text
  /-- There is content where there is a word. -/
  none_iff : content = none ↔ words text = []
  /-- There are no blanks at the ends of the content. -/
  trimmed : ∀ visible ∈ content, visible ≠ "" ∧
    startsBlank visible.toList = false ∧ endsBlank visible.toList = false

namespace Carries

variable {content : Option String} {text more : List Char}

/-- A text without words needs no content. -/
theorem of_wordless (wordless : words text = []) : Carries none text where
  words_eq := wordless.symm
  none_iff := iff_of_true rfl wordless
  trimmed _ found := nomatch found

/-- A trimmed text carries its words. -/
theorem of_trimmed {visible : String} (notEmpty : visible ≠ "")
    (starts : startsBlank visible.toList = false) (ends : endsBlank visible.toList = false)
    (words_eq : words visible.toList = words text) : Carries (some visible) text where
  words_eq := words_eq
  none_iff := by
    refine iff_of_false (Option.some_ne_none visible) ?_
    rw [← words_eq]
    exact Text.words_ne_nil (by simpa using notEmpty) ends
  trimmed _ found := by
    obtain rfl := Option.some.inj found
    exact ⟨notEmpty, starts, ends⟩

/-- Blanks behind a text add no words. -/
theorem append_blank (carries : Carries content text) (blank : IsBlankText more) :
    Carries content (text ++ more) := by
  have same : words (text ++ more) = words text := Text.words_append_of_blank blank text
  exact ⟨same ▸ carries.words_eq, same ▸ carries.none_iff, carries.trimmed⟩

/-- A run of text is trimmed, and a space stands between it and the content where there are
blanks between the texts. -/
theorem append {element : Element} (carries : Carries element.content text)
    (visible : trim more ≠ []) :
    Carries
      (element.append (String.ofList (trim more)) (endsBlank text || startsBlank more)).content
      (text ++ more) := by
  have ends : endsBlank (trim more) = false := Text.endsBlank_trim more
  have starts : startsBlank (trim more) = false := Text.startsBlank_trim more
  cases here : element.content with
  | none =>
      have blank : IsBlankText text :=
        Text.isBlankText_of_words_eq_nil (carries.none_iff.1 here)
      simp only [Element.append, here]
      apply of_trimmed (by simpa using visible) (by simpa using starts) (by simpa using ends)
      rw [String.toList_ofList, Text.words_trim, Text.words_blank_append blank]
  | some content =>
      obtain ⟨notEmpty, contentStarts, contentEnds⟩ := carries.trimmed content here
      have charsNotEmpty : content.toList ≠ [] := by simpa using notEmpty
      have same : words content.toList = words text := by simpa [here] using carries.words_eq
      have joined : (element.append (String.ofList (trim more))
          (endsBlank text || startsBlank more)).content =
            some (String.ofList (content.toList ++
              (if endsBlank text || startsBlank more then [' '] else []) ++ trim more)) := by
        simp only [Element.append, here, String.isEmpty_iff, notEmpty, if_false]
        split <;> simp [String.append_assoc]
      rw [joined]
      apply of_trimmed
      · simp [notEmpty]
      · rw [String.toList_ofList, List.append_assoc, Text.startsBlank_append charsNotEmpty]
        exact contentStarts
      · rw [String.toList_ofList, Text.endsBlank_append visible]
        exact ends
      · rw [String.toList_ofList]
        exact Text.words_append_trim same charsNotEmpty contentEnds more

end Carries

theorem ElementKind.isMarker_eq_false {kind : ElementKind} (isTag : kind.isTag = true) :
    kind.isMarker = false := by
  cases kind with
  | tag | text => rfl
  | lineBreak | blockEnd => cases isTag

/-- The element has the content that it must have if the tags were given these texts. -/
structure Element.Fits (element : Element) (texts : Nat → List Char) : Prop where
  /-- The element of a tag has the words of the text of this tag. -/
  carries : ∀ ref, element.kind.isTag = true → element.chain.getLast? = some ref →
    Carries element.content (texts ref.index)
  /-- A mark has no content. -/
  bare : element.kind.isMarker = true → element.content = none

namespace Element.Fits

variable {element old : Element} {texts others : Nat → List Char} {chain : List StyleRef}

/-- An element without content fits if its tag was given no text. -/
theorem of_none (empty : element.content = none)
    (silent : ∀ ref, element.kind.isTag = true → element.chain.getLast? = some ref →
      texts ref.index = []) : element.Fits texts where
  carries ref isTag last := by
    rw [empty, silent ref isTag last]
    exact .of_wordless rfl
  bare _ := empty

/-- An element fits by its markup alone. -/
theorem of_sameMarkup (fits : old.Fits texts) (same : old.SameMarkup element) :
    element.Fits texts where
  carries ref isTag last := by
    rw [same.content_eq]
    exact fits.carries ref (same.kind_eq ▸ isTag) (same.chain_eq ▸ last)
  bare isMarker := by
    rw [same.content_eq]
    exact fits.bare (same.kind_eq ▸ isMarker)

/-- An element that a script writes fits any texts. -/
theorem of_isWritten (written : element.IsWritten chain) : element.Fits texts where
  carries _ isTag := by
    rw [written.kind_eq] at isTag
    cases isTag
  bare isMarker := by
    rw [written.kind_eq] at isMarker
    cases isMarker

/-- Whether an element fits depends on the text of its own tag alone. -/
theorem congr (fits : element.Fits texts)
    (same : ∀ ref, element.kind.isTag = true → element.chain.getLast? = some ref →
      others ref.index = texts ref.index) : element.Fits others where
  carries ref isTag last := by
    rw [same ref isTag last]
    exact fits.carries ref isTag last
  bare := fits.bare

end Element.Fits

theorem getElem?_listing {document : Document} {place : Nat} {element : Element}
    (found : document.get? place = some element) :
    document.listing[place]? = some element.origin := by
  rw [listing, List.getElem?_map, show document.elements[place]? = some element from found]
  rfl

/-- An element after a script is one that was there, or one that the script wrote. -/
theorem Framed.cases {chain : List StyleRef} {before after : Document}
    (framed : Framed chain before after) {place : Nat} {element : Element}
    (found : after.get? place = some element) :
    (∃ old, before.get? place = some old ∧ old.SameMarkup element) ∨ element.IsWritten chain := by
  obtain inside | outside := Nat.lt_or_ge place before.size
  · obtain ⟨old, there⟩ := exists_get? inside
    obtain ⟨changed, here, same, -⟩ := framed.kept place old there
    obtain rfl := Option.some.inj (here.symm.trans found)
    exact .inl ⟨old, there, same⟩
  · exact .inr (framed.added place element outside found)

end Document

namespace Page

/-! ## What a tag is given -/

/-- The text that a token gives to the tag with this number. -/
def Reader.part (reader : Reader) (number : Nat) : Token → List Char
  | .text content => if reader.inside? = some number then content.toList else []
  | _ => []

/-- While a raw body is read, no text goes to a tag. -/
theorem Reader.part_of_raw {reader : Reader} (reading : reader.raw.isSome = true) (number : Nat)
    (token : Token) : reader.part number token = [] := by
  cases token <;> simp [part, inside?, reading]

/-- The text that some tokens give to the tag with this number: all runs of text that come while
it is the innermost open tag and no raw element is read. -/
def heard (number : Nat) (tokens : List Token) : List Char :=
  (trail Reader.pass {} tokens).flatMap fun (reader, token) => reader.part number token

/-- The content of every tag has the words of the text it was given. -/
structure Filled (assembly : Assembly) (texts : Nat → List Char) : Prop where
  /-- The open tags have their elements. -/
  placed : ∀ tag ∈ assembly.openTags, ∃ element, assembly.document.get? tag.index = some element ∧
    element.kind.isTag = true ∧ element.chain.getLast? = some tag.style
  /-- The open tags know whether the text they were given ends in a blank. -/
  pending : ∀ tag ∈ assembly.openTags, tag.pendingSpace = endsBlank (texts tag.style.index)
  /-- The elements have their content. -/
  fits : ∀ (place : Nat) (element : Element), assembly.document.get? place = some element →
    element.Fits texts
  /-- Tags that have not been met were given no text. -/
  unheard : ∀ number ≥ assembly.styles.size, texts number = []

/-- The innermost tag has been met, after those around it. -/
theorem Standing.innermost {assembly : Assembly}
    (standing : Standing assembly.document.listing assembly.reader) {tag : OpenTag}
    {outer : List OpenTag} (inside : assembly.openTags = tag :: outer) :
    tag.style.index < assembly.styles.size ∧
      ∀ other ∈ outer, other.style.index < tag.style.index := by
  have around := standing.around
  rw [Assembly.chain_reader, Assembly.chain, inside, List.map_cons, List.reverse_cons] at around
  refine ⟨?_, fun other member => ?_⟩
  · have below := around.lt_length tag.style (List.mem_append_right _ (List.mem_singleton_self _))
    rwa [← standing.counted] at below
  · have younger := (List.pairwise_append.1 around.increasing).2.2
    exact younger other.style (List.mem_reverse.2 (List.mem_map_of_mem member)) tag.style
      (List.mem_singleton_self _)

namespace Filled

variable {assembly : Assembly} {texts : Nat → List Char} {draft : Draft}

/-- An element without content may be added, if its own style is new. -/
theorem add (filled : Filled assembly texts) (empty : draft.content = none)
    (fresh : ∀ ref, draft.kind.isTag = true → draft.chain.getLast? = some ref →
      assembly.styles.size ≤ ref.index) :
    Filled { assembly with document := assembly.document.add draft } texts where
  placed tag member := by
    obtain ⟨element, found, isTag, last⟩ := filled.placed tag member
    refine ⟨element, ?_, isTag, last⟩
    rw [Document.get?_add, if_neg (Nat.ne_of_lt (Document.lt_size_of_get? found)), found]
  pending := filled.pending
  fits place element found := by
    rw [Document.get?_add] at found
    split at found
    · obtain rfl := Option.some.inj found
      exact .of_none empty fun ref isTag last => filled.unheard ref.index (fresh ref isTag last)
    · exact filled.fits place element found
  unheard := filled.unheard

/-- A mark adds no text. -/
theorem addMark (filled : Filled assembly texts) (empty : draft.content = none)
    (other : draft.kind.isTag = false) :
    Filled { assembly with document := assembly.document.add draft } texts :=
  filled.add empty fun _ isTag => absurd isTag (Bool.eq_false_iff.1 other)

/-- The element of a new tag has no text yet. -/
theorem openElement (filled : Filled assembly texts) (name : String) (attributes : Attributes)
    (selfClosing : Bool) :
    Filled (assembly.openElement name attributes selfClosing) texts := by
  let draft : Draft :=
    { kind := .tag name
      attributes
      chain := assembly.chain ++ [assembly.styles.nextRef]
      explicitId := Assembly.explicitId? attributes }
  have added : Filled { assembly with document := assembly.document.add draft } texts := by
    refine filled.add rfl fun ref _ last => ?_
    obtain rfl := Option.some.inj (List.getLast?_concat.symm.trans last)
    exact Nat.le_refl _
  have size : (assembly.openElement name attributes selfClosing).styles.size =
      assembly.styles.size + 1 := List.length_append
  rw [Assembly.openElement]
  refine ⟨?_, ?_, added.fits, fun number behind => ?_⟩
  · split
    · exact added.placed
    · refine List.forall_mem_cons.2 ⟨⟨assembly.document.realize draft, ?_, rfl, ?_⟩, added.placed⟩
      · exact (Document.get?_add ..).trans (if_pos rfl)
      · exact List.getLast?_concat
  · split
    · exact added.pending
    · have nothing : texts assembly.styles.size = [] := filled.unheard _ (Nat.le_refl _)
      exact List.forall_mem_cons.2 ⟨(congrArg endsBlank nothing).symm, added.pending⟩
  · exact filled.unheard number (Nat.le_of_succ_le (Nat.le_trans (Nat.le_of_eq size.symm) behind))

/-- Closing an element adds no text. -/
theorem closeElement (filled : Filled assembly texts) (name : String) :
    Filled (assembly.closeElement name) texts := by
  rw [Assembly.closeElement]
  split
  · exact filled
  · next tag outer inside =>
    have closed : Filled { assembly with openTags := outer } texts :=
      { filled with
        placed := (List.forall_mem_cons.1 (inside ▸ filled.placed)).2
        pending := (List.forall_mem_cons.1 (inside ▸ filled.pending)).2 }
    split
    · split
      · exact closed.addMark rfl rfl
      · exact closed
    · exact filled

/-- A script leaves the content of tags as it is. -/
theorem useScript (filled : Filled assembly texts) (settings : Settings) (source : String) :
    Filled (Assembly.useScript settings assembly source) texts := by
  obtain ⟨document, environment, report, same, framed⟩ :=
    Assembly.useScript_frame settings assembly source
  rw [same]
  refine ⟨fun tag member => ?_, filled.pending, fun place element found => ?_, filled.unheard⟩
  · obtain ⟨element, found, isTag, last⟩ := filled.placed tag member
    obtain ⟨changed, there, same, -⟩ := framed.kept tag.index element found
    exact ⟨changed, there, same.kind_eq ▸ isTag, same.chain_eq ▸ last⟩
  · obtain ⟨old, there, same⟩ | written := framed.cases found
    · exact (filled.fits place old there).of_sameMarkup same
    · exact .of_isWritten written

/-- Only the element of an open tag refers last to the style of the tag. -/
theorem place_eq (filled : Filled assembly texts)
    (standing : Standing assembly.document.listing assembly.reader) {tag : OpenTag}
    (isOpen : tag ∈ assembly.openTags) {place : Nat} {element : Element}
    (found : assembly.document.get? place = some element) (isTag : element.kind.isTag = true)
    (last : element.chain.getLast? = some tag.style) : tag.index = place := by
  obtain ⟨own, ownFound, ownIsTag, ownLast⟩ := filled.placed tag isOpen
  exact standing.place_unique (Document.getElem?_listing ownFound)
    (Document.getElem?_listing found) ownIsTag isTag (ownLast.trans last.symm)

/-- The element of the innermost tag may change as the text that the tag was given does. -/
theorem hear (filled : Filled assembly texts)
    (standing : Standing assembly.document.listing assembly.reader) {tag : OpenTag}
    {outer : List OpenTag} (inside : assembly.openTags = tag :: outer) {chars : List Char}
    {grow : Element → Element} (origin_eq : ∀ element, (grow element).origin = element.origin)
    (carries : ∀ element : Element, Document.Carries element.content (texts tag.style.index) →
      Document.Carries (grow element).content (texts tag.style.index ++ chars)) :
    Filled
      { assembly with
        document := { assembly.document with
          elements := assembly.document.elements.modify tag.index grow }
        openTags :=
          { tag with pendingSpace := endsBlank (texts tag.style.index ++ chars) } :: outer }
      fun number => texts number ++ if tag.style.index = number then chars else [] := by
  have kind_eq (element : Element) : (grow element).kind = element.kind :=
    congrArg Origin.kind (origin_eq element)
  have chain_eq (element : Element) : (grow element).chain = element.chain :=
    congrArg Origin.chain (origin_eq element)
  have places (place : Nat) :
      (assembly.document.elements.modify tag.index grow)[place]? =
        (assembly.document.get? place).map fun element =>
          if tag.index = place then grow element else element := by
    rw [List.getElem?_modify]
    split <;> simp [Document.get?]
  obtain ⟨below, younger⟩ := standing.innermost inside
  have isOpen : tag ∈ assembly.openTags := inside ▸ List.mem_cons_self
  have placed : ∀ other ∈ assembly.openTags, ∃ element,
      (assembly.document.elements.modify tag.index grow)[other.index]? = some element ∧
        element.kind.isTag = true ∧ element.chain.getLast? = some other.style := by
    intro other member
    obtain ⟨element, found, isTag, last⟩ := filled.placed other member
    refine ⟨_, by rw [places, found]; rfl, ?_⟩
    split
    · exact ⟨kind_eq element ▸ isTag, chain_eq element ▸ last⟩
    · exact ⟨isTag, last⟩
  refine ⟨?_, ?_, fun place element found => ?_, fun number behind => ?_⟩
  · rw [inside] at placed
    exact List.forall_mem_cons.2 (List.forall_mem_cons.1 placed)
  · refine List.forall_mem_cons.2 ⟨by simp, fun other member => ?_⟩
    rw [if_neg (Nat.ne_of_gt (younger other member)), List.append_nil]
    exact filled.pending other (inside ▸ List.mem_cons_of_mem tag member)
  · rw [Document.get?, places] at found
    obtain ⟨old, there, rfl⟩ := Option.map_eq_some_iff.1 found
    by_cases here : tag.index = place
    · obtain ⟨own, ownFound, ownIsTag, ownLast⟩ := filled.placed tag isOpen
      obtain rfl := Option.some.inj (ownFound.symm.trans (here ▸ there))
      rw [if_pos here]
      refine ⟨fun ref _ last => ?_, fun isMarker => ?_⟩
      · obtain rfl := Option.some.inj (ownLast.symm.trans (chain_eq own ▸ last))
        rw [if_pos rfl]
        exact carries own ((filled.fits place own there).carries tag.style ownIsTag ownLast)
      · rw [kind_eq, ElementKind.isMarker_eq_false ownIsTag] at isMarker
        cases isMarker
    · rw [if_neg here]
      -- an element elsewhere is not that of the innermost tag, and no other tag is given text
      refine (filled.fits place old there).congr fun ref isTag last => ?_
      have other : tag.style.index ≠ ref.index := fun same =>
        here (filled.place_eq standing isOpen there isTag (last.trans
          (congrArg (some ∘ StyleRef.mk) same.symm)))
      rw [if_neg other, List.append_nil]
  · rw [filled.unheard number behind, if_neg (Nat.ne_of_lt (Nat.lt_of_lt_of_le below behind))]
    rfl

/-- Text goes to the innermost open tag. -/
theorem addText (filled : Filled assembly texts)
    (standing : Standing assembly.document.listing assembly.reader) (text : String) :
    Filled (assembly.addText text) fun number =>
      texts number ++
        if assembly.openTags.head?.map (·.style.index) = some number then text.toList else [] := by
  cases inside : assembly.openTags with
  | nil =>
      rw [Assembly.addText_of_outside inside]
      simpa using filled
  | cons tag outer =>
      have pending : tag.pendingSpace = endsBlank (texts tag.style.index) :=
        filled.pending tag (inside ▸ List.mem_cons_self)
      simp only [List.head?_cons, Option.map_some, Option.some.injEq]
      cases blank : (trim text.toList).isEmpty with
      | true =>
          have isBlankText : IsBlankText text.toList :=
            Text.isBlankText_of_trim_eq_nil (List.isEmpty_iff.1 blank)
          rw [Assembly.addText_of_blank inside blank, pending,
            ← Text.endsBlank_append_blank isBlankText]
          have heard := filled.hear standing inside
            (fun element => congrArg Element.origin (id_eq element))
            fun _ carries => carries.append_blank isBlankText
          rwa [List.modify_id] at heard
      | false =>
          have visible : trim text.toList ≠ [] := by simpa using blank
          have textNotEmpty : text.toList ≠ [] := by
            rintro empty
            rw [empty] at visible
            exact visible rfl
          rw [Assembly.addText_of_visible inside blank, pending,
            ← Text.endsBlank_append textNotEmpty (texts tag.style.index)]
          exact filled.hear standing inside (fun _ => rfl) fun element carries =>
            carries.append visible

theorem setMode (filled : Filled assembly texts) (mode : Mode) :
    Filled { assembly with mode } texts :=
  { filled with }

/-- A token without text leaves the texts as they are. -/
theorem addSilence (filled : Filled assembly texts) {reader : Reader} {token : Token}
    (silent : ∀ number, reader.part number token = []) :
    Filled assembly fun number => texts number ++ reader.part number token := by
  simpa only [silent, List.append_nil] using filled

theorem startTag (filled : Filled assembly texts) (name : String) (attributes : Attributes)
    (selfClosing : Bool) : Filled (assembly.startTag name attributes selfClosing) texts := by
  unfold Assembly.startTag
  repeat' split
  all_goals first
    | exact filled
    | exact { filled with }
    | exact filled.addMark rfl rfl
    | exact filled.openElement name attributes selfClosing

theorem endTag (filled : Filled assembly texts) (settings : Settings) (name : String) :
    Filled (Assembly.endTag settings assembly name) texts := by
  unfold Assembly.endTag
  repeat' split
  all_goals first
    | exact filled
    | exact { filled with }
    | exact filled.closeElement name
    | exact (filled.setMode .markup).useScript settings _

/-- A text goes to the innermost open tag, if there is one. -/
theorem takeText (filled : Filled assembly texts)
    (standing : Standing assembly.document.listing assembly.reader) (text : String) :
    Filled (assembly.takeText text) fun number =>
      texts number ++ assembly.reader.part number (.text text) := by
  have raw : assembly.reader.raw = assembly.mode.raw? := rfl
  unfold Assembly.takeText
  cases running : assembly.mode with
  | markup =>
      have inside : assembly.reader.inside? = assembly.openTags.head?.map (·.style.index) := by
        rw [Reader.inside?, raw, running, Assembly.reader, List.head?_map, Option.map_map]
        rfl
      simp only [Reader.part, inside]
      exact filled.addText standing text
  | sheet gathered | script gathered =>
      rw [running] at raw
      exact (filled.setMode _).addSilence fun number => Reader.part_of_raw (by rw [raw]; rfl) ..
  | external =>
      rw [running] at raw
      exact filled.addSilence fun number => Reader.part_of_raw (by rw [raw]; rfl) ..

/-- Each token adds the text that the reader gives it. -/
theorem take (filled : Filled assembly texts)
    (standing : Standing assembly.document.listing assembly.reader) (settings : Settings)
    (token : Token) :
    Filled (assembly.take settings token) fun number =>
      texts number ++ assembly.reader.part number token := by
  cases token with
  | start name attributes selfClosing =>
      refine addSilence ?_ fun _ => rfl
      simp only [Assembly.take]
      split
      · exact filled.startTag name attributes selfClosing
      · exact filled
  | finish name => exact addSilence (filled.endTag settings name) fun _ => rfl
  | text content => exact filled.takeText standing content

/-- The content of every tag has the words that it is given to the end. -/
theorem foldl_take (filled : Filled assembly texts)
    (standing : Standing assembly.document.listing assembly.reader) (settings : Settings)
    (tokens : List Token) :
    Filled (tokens.foldl (Assembly.take settings) assembly) fun number =>
      texts number ++ (trail Reader.pass assembly.reader tokens).flatMap fun (reader, token) =>
        reader.part number token := by
  induction tokens generalizing assembly texts with
  | nil => simpa [trail] using filled
  | cons token rest ih =>
      have rested := ih (filled.take standing settings token)
        (standing.foldl_take settings [token])
      simpa only [trail, List.foldl_cons, List.flatMap_cons, Assembly.reader_take,
        List.append_assoc] using rested

end Filled

/-- Whatever the markup, the content of every tag has the words of the text that was given to the
tag while it was the innermost open one, and no blanks at its ends; without words there is no
content.  Line breaks and ends of blocks never have any. -/
theorem words_content (settings : Settings) (markup : String) :
    let document := (parse settings markup).document
    let tokens := Token.ofMarkup markup
    (∀ (number : Nat) (element : Element),
      (document.elements.filter (·.kind.isTag))[number]? = some element →
        Document.Carries element.content (heard number tokens)) ∧
      ∀ element ∈ document.elements, element.kind.isMarker = true → element.content = none := by
  intro document tokens
  have begun : Filled {} fun _ => [] :=
    { placed := List.forall_mem_nil _
      pending := List.forall_mem_nil _
      fits := fun _ _ found => nomatch found
      unheard := fun _ _ => rfl }
  have fresh : Standing (Assembly.document {}).listing (Assembly.reader {}) := Standing.empty
  have filled : Filled (Assembly.ofTokens settings tokens) (heard · tokens) :=
    begun.foldl_take fresh settings tokens
  have standing : Standing document.listing (Assembly.ofTokens settings tokens).reader :=
    fresh.foldl_take settings tokens
  refine ⟨fun number element found => ?_, fun element member => ?_⟩
  · have last : element.chain.getLast? = some ⟨number⟩ := by
      refine standing.owned number element.origin ?_
      rw [Document.tagsOf_listing, List.getElem?_map, found]
      rfl
    obtain ⟨member, isTag⟩ := List.mem_filter.1 (List.mem_of_getElem? found)
    obtain ⟨place, there⟩ := List.mem_iff_getElem?.1 member
    exact (filled.fits place element there).carries ⟨number⟩ isTag last
  · obtain ⟨place, there⟩ := List.mem_iff_getElem?.1 member
    exact (filled.fits place element there).bare

/-- Tags and comments between two runs of text do not keep their words apart, and blanks do. -/
example :
    (parse {} "<p> a<b>x </b>b<!-- --> <br>\nc</p>").document.elements.map (·.content) =
      [some "ab c", some "x", none, none] := by
  decide +kernel

end Page
end Pagelet
