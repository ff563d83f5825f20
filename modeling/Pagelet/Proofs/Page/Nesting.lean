import Pagelet.Proofs.Page.Inheritance

/-!
# Tags that open and close

Whoever reads the tokens of a page and keeps no more than the raw element that is open, the open
tags and the number of tags so far knows where every tag opens and closes.  The assembly agrees
with this reader at every token, and what a token adds to the elements of a page is told by what
the reader knows.
-/

namespace Pagelet

open Markup (Attributes Segment Token)
open Style (StyleRef)

namespace Document

theorem getElem?_append_of_some {α : Type _} {front : List α} {place : Nat} {a : α}
    (found : front[place]? = some a) (behind : List α) : (front ++ behind)[place]? = some a :=
  (List.getElem?_append_left (List.getElem?_eq_some_iff.1 found).1).trans found

/-- What stands somewhere in two parts stands in the first or in the second. -/
theorem getElem?_append_cases {α : Type _} {front behind : List α} {place : Nat} {a : α}
    (found : (front ++ behind)[place]? = some a) :
    front[place]? = some a ∨
      ∃ offset, place = front.length + offset ∧ behind[offset]? = some a := by
  obtain inside | outside := Nat.lt_or_ge place front.length
  · exact .inl ((List.getElem?_append_left inside).symm.trans found)
  · rw [List.getElem?_append_right outside] at found
    exact .inr ⟨place - front.length, (Nat.add_sub_of_le outside).symm, found⟩

/-- The origins of all elements, in order. -/
def listing (document : Document) : List Origin :=
  document.elements.map Element.origin

/-- The origins of start tags among others. -/
def tagsOf (listing : List Origin) : List Origin :=
  listing.filter (·.kind.isTag)

theorem tagsOf_append (first second : List Origin) :
    tagsOf (first ++ second) = tagsOf first ++ tagsOf second :=
  List.filter_append ..

/-- The tags of a page are its elements of this kind. -/
theorem tagsOf_listing (document : Document) :
    tagsOf document.listing =
      (document.elements.filter (·.kind.isTag)).map Element.origin := by
  rw [tagsOf, listing, List.filter_map]
  rfl

/-- A new element is listed behind the others. -/
theorem listing_add (document : Document) (draft : Draft) :
    (document.add draft).listing =
      document.listing ++ [⟨draft.kind, draft.attributes, draft.chain⟩] := by
  rw [listing, add, List.map_append]
  rfl

/-- A fragment does not change the listing. -/
theorem listing_append (document : Document) (index : Nat) (fragment : String)
    (separated : Bool) :
    (document.append index fragment separated).listing = document.listing := by
  apply List.ext_getElem?
  intro place
  rw [listing, listing, append_eq, List.getElem?_map, List.getElem?_map, List.getElem?_modify]
  cases document.elements[place]? with
  | none => rfl
  | some element => by_cases here : index = place <;> simp [here, Element.origin, Element.append]

/-- A script adds text in its chain and nothing else. -/
theorem Framed.exists_listing {chain : List StyleRef} {before after : Document}
    (framed : Framed chain before after) :
    ∃ count, after.listing = before.listing ++ List.replicate count ⟨.text, [], chain⟩ := by
  have kept : (after.elements.take before.size).filterMap (some ∘ Element.origin) =
      (before.elements.take before.size).filterMap (some ∘ Element.origin) := by
    refine framed.filterMap_take_eq (fun same => ?_) (Nat.le_refl before.size)
    simp only [Function.comp, Element.origin, same.kind_eq, same.attributes_eq, same.chain_eq]
  rw [List.filterMap_eq_map, size, List.take_length] at kept
  have written : ∀ origin ∈ (after.elements.drop before.size).map Element.origin,
      origin = ⟨.text, [], chain⟩ := by
    intro origin member
    obtain ⟨element, inside, rfl⟩ := List.mem_map.1 member
    obtain ⟨offset, found⟩ := List.mem_iff_getElem?.1 inside
    rw [List.getElem?_drop] at found
    have isWritten := framed.added _ element (Nat.le_add_right _ _) found
    rw [Element.origin, isWritten.kind_eq, isWritten.attributes_eq, isWritten.chain_eq]
  refine ⟨((after.elements.drop before.size).map Element.origin).length, ?_⟩
  calc
    after.listing = (after.elements.take before.size).map Element.origin ++
        (after.elements.drop before.size).map Element.origin := by
      rw [← List.map_append, List.take_append_drop]
      rfl
    _ = before.listing ++ List.replicate _ ⟨.text, [], chain⟩ := by
      rw [← List.eq_replicate_of_mem written]
      exact congrArg (· ++ _) kept

end Document

namespace Page

open Document (Origin)

/-! ## The reader -/

/-- What a reader of the tokens keeps in mind. -/
structure Reader where
  /-- The raw element that is being read, if any. -/
  raw : Option String := none
  /-- The open tags with their numbers, the innermost first. -/
  openTags : List (String × Nat) := []
  /-- How many start tags had an element so far; the next one has this number. -/
  count : Nat := 0
deriving DecidableEq, Repr

/-- The references to the styles of some open tags, the innermost last. -/
def chainOf (openTags : List (String × Nat)) : List StyleRef :=
  (openTags.map fun (_, number) => ⟨number⟩).reverse

/-- The innermost tag comes last in a chain. -/
theorem chainOf_cons (name : String) (number : Nat) (outer : List (String × Nat)) :
    chainOf ((name, number) :: outer) = chainOf outer ++ [⟨number⟩] :=
  List.reverse_cons

namespace Reader

/-- The references to the styles of the open tags. -/
def chain (reader : Reader) : List StyleRef :=
  chainOf reader.openTags

/-- Meets the start tag of an element, which may stay open. -/
def meet (reader : Reader) (name : String) (stays : Bool) : Reader :=
  { reader with
    openTags := if stays then (name, reader.count) :: reader.openTags else reader.openTags
    count := reader.count + 1 }

/-- Closes the innermost open tag if it has this name. -/
def close (reader : Reader) (name : String) : Reader :=
  match reader.openTags with
  | [] => reader
  | (opened, _) :: outer => if opened = name then { reader with openTags := outer } else reader

/-- Passes a token. -/
def pass (reader : Reader) : Token → Reader
  | .start name _ selfClosing =>
      if reader.raw.isSome then reader
      else if name ∈ Markup.rawNames then
        if selfClosing then reader else { reader with raw := some name }
      else if name = "br" then reader
      else reader.meet name !(selfClosing || Markup.isVoid name)
  | .finish name =>
      match reader.raw with
      | none => reader.close name
      | some raw => if name = raw then { reader with raw := none } else reader
  | .text _ => reader

/-- The number of the innermost open tag, unless a raw element is being read. -/
def inside? (reader : Reader) : Option Nat :=
  if reader.raw.isSome then none else reader.openTags.head?.map Prod.snd

end Reader

/-- An end tag closes the innermost tag alone, and nothing closes a tag without content. -/
example :
    ([ .start "div" [] false, .start "img" [] false, .start "p" [] false, .finish "div",
        .start "script" [] false, .finish "p" ].foldl Reader.pass {}) =
      { raw := some "script", openTags := [("p", 2), ("div", 0)], count := 3 } := by
  decide

/-- What can be added to the elements while the reader comes to know something else. -/
inductive Step (reader : Reader) : List Origin → Reader → Prop
  /-- Nothing is added, and no tag opens or closes. -/
  | still (raw : Option String) : Step reader [] { reader with raw }
  /-- A line breaks. -/
  | lineBreak : Step reader [⟨.lineBreak, [], reader.chain⟩] reader
  /-- A start tag has its element, which refers to its own style last. -/
  | element (name : String) (attributes : Attributes) (stays : Bool) :
      Step reader [⟨.tag name, attributes, reader.chain ++ [⟨reader.count⟩]⟩]
        (reader.meet name stays)
  /-- The innermost tag closes without a mark. -/
  | close {name : String} {number : Nat} {outer : List (String × Nat)}
      (inside : reader.openTags = (name, number) :: outer) :
      Step reader [] { reader with openTags := outer }
  /-- The innermost tag closes, and its end is marked. -/
  | mark {name : String} {number : Nat} {outer : List (String × Nat)}
      (inside : reader.openTags = (name, number) :: outer) :
      Step reader [⟨.blockEnd name, [], chainOf outer⟩] { reader with openTags := outer }
  /-- A script writes text. -/
  | write (raw : Option String) (count : Nat) :
      Step reader (List.replicate count ⟨.text, [], reader.chain⟩) { reader with raw }

/-- The raw element that text belongs to. -/
def Mode.raw? : Mode → Option String
  | .markup => none
  | .sheet _ => some "style"
  | .script _ => some "script"
  | .external => some "script"

namespace Assembly

variable {assembly : Assembly} {settings : Settings}

/-- What a reader knows who has come as far as the assembly. -/
def reader (assembly : Assembly) : Reader where
  raw := assembly.mode.raw?
  openTags := assembly.openTags.map fun tag => (tag.name, tag.style.index)
  count := assembly.styles.size

/-- The chain that the reader keeps is the one of the assembly. -/
theorem chain_reader (assembly : Assembly) : assembly.reader.chain = assembly.chain := by
  rw [Reader.chain, chainOf, reader, chain, List.map_map]
  rfl

/-- The second assembly is the first after a step. -/
def Steps (before after : Assembly) : Prop :=
  ∃ added, after.document.listing = before.document.listing ++ added ∧
    Step before.reader added after.reader

/-- With the same elements, styles and open tags at most the raw element differs. -/
theorem steps_still {before after : Assembly}
    (listing_eq : after.document.listing = before.document.listing)
    (openTags_eq : after.reader.openTags = before.reader.openTags)
    (count_eq : after.reader.count = before.reader.count) : Steps before after := by
  refine ⟨[], by rw [listing_eq, List.append_nil], ?_⟩
  have same : { before.reader with raw := after.reader.raw } = after.reader := by
    simp only [← openTags_eq, ← count_eq]
  exact same ▸ .still after.reader.raw

/-- A tag that opens is met by the reader, which keeps it open unless it closes itself. -/
theorem reader_openElement (assembly : Assembly) (name : String) (attributes : Attributes)
    (selfClosing : Bool) :
    (assembly.openElement name attributes selfClosing).reader =
      assembly.reader.meet name !(selfClosing || Markup.isVoid name) := by
  unfold openElement
  cases selfClosing || Markup.isVoid name <;>
    simp [reader, Reader.meet, Style.ResolvedStyles.size, Style.ResolvedStyles.push,
      Style.ResolvedStyles.nextRef]

/-- Opening an element is a step. -/
theorem steps_openElement (assembly : Assembly) (name : String) (attributes : Attributes)
    (selfClosing : Bool) :
    Steps assembly (assembly.openElement name attributes selfClosing) := by
  refine ⟨_, Document.listing_add .., ?_⟩
  rw [reader_openElement, ← chain_reader]
  exact .element name attributes _

theorem steps_breakLine (assembly : Assembly) : Steps assembly assembly.breakLine := by
  refine ⟨_, Document.listing_add .., ?_⟩
  rw [← chain_reader]
  exact .lineBreak

/-- The reader closes the tags that the assembly closes. -/
theorem reader_closeElement (assembly : Assembly) (name : String) :
    (assembly.closeElement name).reader = assembly.reader.close name := by
  cases inside : assembly.openTags with
  | nil => simp [closeElement, reader, Reader.close, inside]
  | cons tag outer =>
      simp only [closeElement, reader, Reader.close, inside, List.map_cons]
      split
      · split <;> rfl
      · simp [inside]

/-- Closing an element is a step. -/
theorem steps_closeElement (assembly : Assembly) (name : String) :
    Steps assembly (assembly.closeElement name) := by
  cases inside : assembly.openTags with
  | nil =>
      rw [closeElement, inside]
      exact steps_still rfl rfl rfl
  | cons tag outer =>
      have opened : assembly.reader.openTags = (tag.name, tag.style.index) ::
          outer.map fun tag => (tag.name, tag.style.index) := by
        rw [reader, inside]
        rfl
      have chained : chain { assembly with openTags := outer } =
          chainOf (outer.map fun tag => (tag.name, tag.style.index)) :=
        (chain_reader { assembly with openTags := outer }).symm
      rw [closeElement, inside]
      simp only
      split
      · next same =>
        split
        · refine ⟨_, Document.listing_add .., ?_⟩
          rw [chained, ← same]
          exact .mark opened
        · exact ⟨[], (List.append_nil _).symm, .close opened⟩
      · exact steps_still rfl rfl rfl

/-- Text changes neither the listing nor the open tags. -/
theorem addText_same (assembly : Assembly) (text : String) :
    (assembly.addText text).document.listing = assembly.document.listing ∧
      (assembly.addText text).reader = assembly.reader := by
  cases inside : assembly.openTags with
  | nil => rw [addText_of_outside inside]; exact ⟨rfl, rfl⟩
  | cons tag outer =>
      cases blank : (Text.trim text.toList).isEmpty with
      | true =>
          rw [addText_of_blank inside blank]
          exact ⟨rfl, by simp [reader, inside]⟩
      | false =>
          rw [addText_of_visible inside blank]
          exact ⟨Document.listing_append .., by simp [reader, inside]⟩

/-- A script changes the elements in the chain of the open tags, and nothing else but what scripts
leave to each other. -/
theorem useScript_frame (settings : Settings) (assembly : Assembly) (source : String) :
    ∃ document environment report,
      useScript settings assembly source = { assembly with document, environment, report } ∧
        Document.Framed assembly.chain assembly.document document := by
  rw [useScript]
  split
  · exact ⟨_, _, _, rfl,
      (Script.admits_framed assembly.chain).run source assembly.environment assembly.document⟩
  · exact ⟨_, _, _, rfl, .refl assembly.chain assembly.document⟩

theorem reader_useScript (settings : Settings) (assembly : Assembly) (source : String) :
    (useScript settings assembly source).reader = assembly.reader := by
  obtain ⟨document, environment, report, same, -⟩ := useScript_frame settings assembly source
  rw [same]
  rfl

theorem steps_useScript (settings : Settings) (assembly : Assembly) (mode : Mode)
    (source : String) :
    Steps assembly (useScript settings { assembly with mode } source) := by
  obtain ⟨document, environment, report, same, framed⟩ :=
    useScript_frame settings { assembly with mode } source
  obtain ⟨count, written⟩ := framed.exists_listing
  rw [same]
  refine ⟨_, written, ?_⟩
  have chain_eq : chain { assembly with mode } = assembly.reader.chain :=
    (chain_reader assembly).symm
  rw [chain_eq]
  exact .write mode.raw? count

theorem raw?_rawMode {name : String} (isRaw : name ∈ Markup.rawNames) (attributes : Attributes) :
    (rawMode name attributes).raw? = some name := by
  obtain rfl | rfl : name = "script" ∨ name = "style" := by simpa [Markup.rawNames] using isRaw
  · rw [rawMode, if_neg (by decide), scriptMode]
    split <;> rfl
  · rfl

/-- A start tag is passed by the reader as the assembly takes it. -/
theorem reader_start (settings : Settings) (running : assembly.mode = .markup) (name : String)
    (attributes : Attributes) (selfClosing : Bool) :
    (take settings assembly (.start name attributes selfClosing)).reader =
      assembly.reader.pass (.start name attributes selfClosing) := by
  have noRaw : assembly.reader.raw = none := congrArg Mode.raw? running
  rw [Reader.pass, noRaw]
  by_cases isRaw : name ∈ Markup.rawNames
  · cases selfClosing with
    | false =>
        rw [take_start_raw running isRaw]
        simp [reader, raw?_rawMode isRaw, isRaw]
    | true =>
        have unchanged : take settings assembly (.start name attributes true) = assembly := by
          obtain rfl | rfl : name = "script" ∨ name = "style" := by
            simpa [Markup.rawNames] using isRaw
          all_goals simp [take, running, startTag]
        rw [unchanged]
        simp [isRaw]
  · obtain ⟨noScript, noStyle⟩ : name ≠ "script" ∧ name ≠ "style" := by
      simpa [Markup.rawNames] using isRaw
    simp only [take, running, startTag, if_neg noStyle, if_neg noScript, if_neg isRaw,
      Option.isSome_none, Bool.false_eq_true, if_false]
    split
    · rfl
    · exact reader_openElement ..

/-- The assembly agrees with the reader over one token. -/
theorem reader_take (settings : Settings) (assembly : Assembly) (token : Token) :
    (take settings assembly token).reader = assembly.reader.pass token := by
  have raw : assembly.reader.raw = assembly.mode.raw? := rfl
  cases token with
  | start name attributes selfClosing =>
      cases running : assembly.mode with
      | markup => exact reader_start settings running name attributes selfClosing
      | sheet | script | external => simp [take, Reader.pass, raw, running, Mode.raw?]
  | finish name =>
      rw [Reader.pass, raw]
      simp only [take, endTag]
      cases assembly.mode with
      | markup => exact reader_closeElement assembly name
      | sheet gathered =>
          simp only [Mode.raw?]
          split <;> rfl
      | script gathered =>
          simp only [Mode.raw?]
          split
          · exact reader_useScript ..
          · rfl
      | external =>
          simp only [Mode.raw?]
          split <;> rfl
  | text content =>
      simp only [take, takeText, Reader.pass]
      split
      · exact (addText_same assembly content).2
      · next running => rw [reader, reader, running]; rfl
      · next running => rw [reader, reader, running]; rfl
      · rfl

/-- Every token makes a step. -/
theorem steps_take (settings : Settings) (assembly : Assembly) (token : Token) :
    Steps assembly (take settings assembly token) := by
  cases token with
  | start name attributes selfClosing =>
      simp only [take, startTag]
      repeat' split
      all_goals first
        | exact steps_still rfl rfl rfl
        | exact steps_breakLine assembly
        | exact steps_openElement ..
  | finish name =>
      simp only [take, endTag]
      repeat' split
      all_goals first
        | exact steps_closeElement assembly name
        | exact steps_useScript settings assembly .markup _
        | exact steps_still rfl rfl rfl
  | text content =>
      simp only [take, takeText]
      split
      · have same := addText_same assembly content
        exact steps_still same.1 (same.2 ▸ rfl) (same.2 ▸ rfl)
      all_goals exact steps_still rfl rfl rfl

/-- What every step keeps is kept by a run over tokens. -/
theorem foldl_take_keeps {Keeps : List Origin → Reader → Prop}
    (step : ∀ {listing added : List Origin} {reader after : Reader},
      Keeps listing reader → Step reader added after → Keeps (listing ++ added) after)
    (begun : Keeps assembly.document.listing assembly.reader) (settings : Settings)
    (tokens : List Token) :
    Keeps (tokens.foldl (take settings) assembly).document.listing
      (tokens.foldl (take settings) assembly).reader := by
  induction tokens generalizing assembly with
  | nil => exact begun
  | cons token rest ih =>
      obtain ⟨added, grown, made⟩ := steps_take settings assembly token
      exact ih (grown ▸ step begun made)

end Assembly

/-- Passes the tokens of a segment. -/
def Reader.passSegment (reader : Reader) (segment : Segment) : Reader :=
  segment.tokens.foldl pass reader

namespace Assembly

variable {assembly : Assembly}

/-- The assembly agrees with the reader over one segment. -/
theorem reader_takeSegment (settings : Settings) (assembly : Assembly) (segment : Segment) :
    (takeSegment settings assembly segment).reader = assembly.reader.passSegment segment := by
  rw [takeSegment, Reader.passSegment]
  generalize segment.tokens = tokens
  induction tokens generalizing assembly with
  | nil => rfl
  | cons token rest ih => rw [List.foldl_cons, List.foldl_cons, ih, reader_take]

/-- The reader knows in which chain the body of a raw element is handed on. -/
theorem filterMap_segmentUse?_trail (settings : Settings) (running : assembly.mode = .markup)
    {segments : List Segment} (linked : Segment.Linked segments) :
    (trail (absorb settings) assembly segments).filterMap
        (fun moment => segmentUse? moment.1.chain moment.2) =
      (trail Reader.passSegment assembly.reader segments).filterMap
        (fun moment => segmentUse? moment.1.chain moment.2) := by
  rw [← trail_takeSegment running linked]
  clear running linked
  induction segments generalizing assembly with
  | nil => rfl
  | cons segment rest ih =>
      simp only [trail, List.filterMap_cons, chain_reader, reader_takeSegment, ih]

end Assembly

/-- With scripts enabled, the texts that are handed on are the bodies of the closed sheets and
of the closed scripts without a source elsewhere, as they are written and in their order, and
scripts run in the chain of the tags then open, which a reader of the tokens knows.  Raw bodies do
nothing else to the page, and no start tag comes while one is gathered. -/
theorem parse_uses (limits : Script.Limits) (markup : String) :
    let settings : Settings := { executeScripts := true, limits }
    let segments := Segment.ofMarkup markup
    let moments := trail (Assembly.take settings) {} (Token.ofMarkup markup)
    (segments.flatMap Segment.source = markup.toList ∧
        segments.flatMap Segment.tokens = Token.ofMarkup markup ∧ Segment.Linked segments) ∧
      (∀ moment ∈ moments, match moment.1.use? moment.2 with
        | some use => Assembly.take settings moment.1 moment.2 =
            use.perform settings { moment.1 with mode := .markup }
        | none => moment.1.SameUses (Assembly.take settings moment.1 moment.2)) ∧
      moments.filterMap (fun (state, token) => state.use? token) =
        (trail (Assembly.absorb settings) {} segments).filterMap
          (fun (state, segment) => segmentUse? state.chain segment) ∧
      moments.filterMap (fun (state, token) => state.use? token) =
        (trail Reader.passSegment {} segments).filterMap
          (fun moment => segmentUse? moment.1.chain moment.2) ∧
      parse settings markup = (segments.foldl (Assembly.absorb settings) {}).page limits ∧
      ∀ moment ∈ moments, ∀ name attributes selfClosing,
        moment.2 = .start name attributes selfClosing → moment.1.mode = .markup := by
  intro settings segments moments
  have linked := Segment.linked_ofMarkup markup
  have running : ∀ moment ∈ trail (Assembly.absorb settings) {} segments,
      moment.1.mode = .markup ∧ moment.2.Proper :=
    Assembly.running_of_mem_trail settings rfl linked
  have inside : moments = _ := trail_ofMarkup settings markup
  have handedOn : moments.filterMap (fun (state, token) => state.use? token) =
      (trail (Assembly.absorb settings) {} segments).filterMap
        (fun (state, segment) => segmentUse? state.chain segment) := by
    rw [inside, List.filterMap_flatMap, List.filterMap_eq_flatMap_toList]
    refine List.flatMap_congr fun moment member => ?_
    obtain ⟨mode, proper⟩ := running moment member
    exact Assembly.filterMap_use?_trail mode proper
  refine ⟨⟨Segment.flatMap_source markup, Segment.flatMap_tokens markup, linked⟩, ?_, handedOn,
    handedOn.trans (Assembly.filterMap_segmentUse?_trail settings rfl linked),
    parse_eq_absorb settings markup, ?_⟩
  · rintro ⟨state, token⟩ -
    cases handed : state.use? token with
    | some use => exact Assembly.take_eq_perform handed
    | none => exact Assembly.sameUses_take handed
  · rintro ⟨state, token⟩ member name attributes selfClosing rfl
    rw [inside] at member
    obtain ⟨⟨before, segment⟩, segmentMember, tokenMember⟩ := List.mem_flatMap.1 member
    obtain ⟨mode, proper⟩ := running _ segmentMember
    exact Assembly.running_of_start_mem_trail mode proper tokenMember

end Page
end Pagelet
