import Pagelet.Proofs.Page.Nesting

/-!
# Chains of styles

A chain of style references stands for tags that lie in each other.  Whatever end tags the markup
has or lacks, and whatever its scripts write, the chains of a page make up a forest: each is that
of the tag it refers to last, and all it refers to is there.  Clicks keep it so.
-/

namespace Pagelet

open Document (Element ElementId Origin tagsOf tagsOf_append)
open Style (Properties ResolvedStyles StyleRef)

namespace Style

/-- Where every reference is to a style, none is passed over. -/
theorem ResolvedStyles.exists_layers {styles : ResolvedStyles} {chain : List StyleRef}
    (inside : ∀ ref ∈ chain, ref.index < styles.size) :
    ∃ layers, chain.map styles.get? = layers.map some ∧
      styles.computed chain = Properties.mergeAll layers := by
  refine ⟨chain.filterMap styles.get?, ?_, rfl⟩
  induction chain with
  | nil => rfl
  | cons ref rest ih =>
      obtain ⟨first, others⟩ := List.forall_mem_cons.1 inside
      have found : styles.get? ref = some styles.entries[ref.index] :=
        List.getElem?_eq_getElem first
      rw [List.map_cons, List.filterMap_cons_some found, List.map_cons, ih others, found]

end Style

namespace Document

/-- The chain refers to tags that lie in each other, the innermost last. -/
inductive Rooted (tags : List Origin) : List StyleRef → Prop
  /-- No tag is around. -/
  | nil : Rooted tags []
  /-- One more tag is around, which is younger than those around it. -/
  | inside {outer : List StyleRef} {ref : StyleRef} {tag : Origin} (around : Rooted tags outer)
      (younger : ∀ older ∈ outer, older.index < ref.index)
      (found : tags[ref.index]? = some tag) (chain_eq : tag.chain = outer ++ [ref]) :
      Rooted tags (outer ++ [ref])

namespace Rooted

variable {tags : List Origin} {chain outer : List StyleRef} {ref : StyleRef}

/-- Tags that come later leave the chain as it is. -/
theorem mono (rooted : Rooted tags chain) (more : List Origin) : Rooted (tags ++ more) chain := by
  induction rooted with
  | nil => exact .nil
  | inside _ younger found chain_eq ih =>
      exact .inside ih younger (getElem?_append_of_some found more) chain_eq

/-- Where the innermost tag ends, the chain of the others is left. -/
theorem of_concat (rooted : Rooted tags (outer ++ [ref])) : Rooted tags outer := by
  generalize whole : outer ++ [ref] = chain at rooted
  cases rooted with
  | nil => simp at whole
  | inside around =>
      obtain ⟨rfl, -⟩ := List.append_inj' whole rfl
      exact around

/-- A rooted chain refers to styles of tags that are there. -/
theorem lt_length (rooted : Rooted tags chain) : ∀ ref ∈ chain, ref.index < tags.length := by
  induction rooted with
  | nil => exact List.forall_mem_nil _
  | inside _ _ found _ ih =>
      exact List.forall_mem_append.2
        ⟨ih, List.forall_mem_singleton.2 (List.getElem?_eq_some_iff.1 found).1⟩

/-- From the outside in, the styles of a rooted chain are ever younger. -/
theorem increasing (rooted : Rooted tags chain) : chain.Pairwise (·.index < ·.index) := by
  induction rooted with
  | nil => exact .nil
  | inside _ younger _ _ ih =>
      refine List.pairwise_append.2 ⟨ih, List.pairwise_singleton .., ?_⟩
      exact fun older member => List.forall_mem_singleton.2 (younger older member)

/-- Each part from the outside in is the whole chain of the tag it refers to last. -/
theorem exists_tag (rooted : Rooted tags chain) (front : outer ++ [ref] <+: chain) :
    ∃ tag, tags[ref.index]? = some tag ∧ tag.chain = outer ++ [ref] := by
  induction rooted with
  | nil => simp at front
  | inside _ _ found chain_eq ih =>
      obtain whole | shorter := List.prefix_concat_iff.1 front
      · obtain ⟨rfl, last⟩ := List.append_inj' whole rfl
        obtain rfl := List.singleton_inj.1 last
        exact ⟨_, found, chain_eq⟩
      · exact ih shorter

end Rooted

/-- The chains make up a forest, in which each tag has its own number last. -/
structure IsForest (listing : List Origin) : Prop where
  /-- Each tag refers last to its own style. -/
  owned : ∀ (number : Nat) (tag : Origin), (tagsOf listing)[number]? = some tag →
    tag.chain.getLast? = some ⟨number⟩
  /-- Every chain is rooted in the tags. -/
  rooted : ∀ entry ∈ listing, Rooted (tagsOf listing) entry.chain

/-- A tag has the number that its chain has last. -/
theorem IsForest.getElem?_tagsOf {listing : List Origin} {tag : Origin} {ref : StyleRef}
    (forest : IsForest listing) (member : tag ∈ listing) (isTag : tag.kind.isTag = true)
    (last : tag.chain.getLast? = some ref) : (tagsOf listing)[ref.index]? = some tag := by
  have kept : tag ∈ tagsOf listing := List.mem_filter.2 ⟨member, isTag⟩
  obtain ⟨number, found⟩ := List.mem_iff_getElem?.1 kept
  obtain rfl := Option.some.inj (last.symm.trans (forest.owned number tag found))
  exact found

/-- No two tags refer to the same style last. -/
theorem IsForest.place_unique {listing : List Origin} (forest : IsForest listing)
    {first second : Nat} {tag other : Origin} (found : listing[first]? = some tag)
    (there : listing[second]? = some other) (isTag : tag.kind.isTag = true)
    (otherIsTag : other.kind.isTag = true)
    (same : tag.chain.getLast? = other.chain.getLast?) : first = second := by
  have distinct : (tagsOf listing).Pairwise fun tag other =>
      tag.chain.getLast? ≠ other.chain.getLast? := by
    refine List.pairwise_iff_getElem.2 fun number later inside laterInside before => ?_
    rw [forest.owned number _ (List.getElem?_eq_getElem inside),
      forest.owned later _ (List.getElem?_eq_getElem laterInside)]
    simpa using Nat.ne_of_lt before
  rw [tagsOf, List.pairwise_filter, List.pairwise_iff_getElem] at distinct
  obtain ⟨inside, rfl⟩ := List.getElem?_eq_some_iff.1 found
  obtain ⟨otherInside, rfl⟩ := List.getElem?_eq_some_iff.1 there
  obtain before | rfl | behind := Nat.lt_trichotomy first second
  · exact absurd same (distinct first second inside otherInside before isTag otherIsTag)
  · rfl
  · exact absurd same.symm (distinct second first otherInside inside behind otherIsTag isTag)

/-- What a script writes in a chain is no tag, and lies in the chain. -/
theorem of_mem_written {chain : List StyleRef} {count : Nat} {entry : Origin}
    (member : entry ∈ List.replicate count ⟨.text, [], chain⟩) :
    entry.kind.isTag = false ∧ entry.chain = chain := by
  obtain rfl := List.eq_of_mem_replicate member
  exact ⟨rfl, rfl⟩

/-- Elements without a tag of their own lie in the tags that are there. -/
theorem IsForest.append {listing added : List Origin} {chain : List StyleRef}
    (forest : IsForest listing) (around : Rooted (tagsOf listing) chain)
    (marks : ∀ entry ∈ added, entry.kind.isTag = false ∧ entry.chain = chain) :
    tagsOf (listing ++ added) = tagsOf listing ∧ IsForest (listing ++ added) := by
  have same : tagsOf (listing ++ added) = tagsOf listing := by
    have untagged : tagsOf added = [] :=
      List.filter_eq_nil_iff.2 fun entry member => by simp [(marks entry member).1]
    rw [tagsOf_append, untagged, List.append_nil]
  refine ⟨same, ⟨same ▸ forest.owned, ?_⟩⟩
  rw [same]
  refine List.forall_mem_append.2 ⟨forest.rooted, fun entry member => ?_⟩
  rw [(marks entry member).2]
  exact around

end Document

namespace Page

open Document (IsForest Rooted)

/-- The chains make up a forest, in which the reader stands. -/
structure Standing (listing : List Origin) (reader : Reader) : Prop extends IsForest listing where
  /-- The reader has counted the tags. -/
  counted : reader.count = (tagsOf listing).length
  /-- The open tags lie in each other. -/
  around : Rooted (tagsOf listing) reader.chain

namespace Standing

variable {listing added : List Origin} {reader after : Reader}

theorem empty : Standing [] {} where
  owned _ _ found := absurd found (by simp [tagsOf])
  rooted := List.forall_mem_nil _
  counted := rfl
  around := .nil

/-- Elements without a tag of their own may be added where the reader stands. -/
theorem addMarks (standing : Standing listing reader) (count_eq : after.count = reader.count)
    (around : Rooted (tagsOf listing) after.chain)
    (marks : ∀ entry ∈ added, entry.kind.isTag = false ∧ entry.chain = after.chain) :
    Standing (listing ++ added) after := by
  obtain ⟨same, forest⟩ := standing.toIsForest.append around marks
  exact { forest with
    counted := by rw [same, count_eq, standing.counted]
    around := same ▸ around }

/-- The tags around the innermost one lie in each other. -/
theorem outer (standing : Standing listing reader) {name : String} {number : Nat}
    {outer : List (String × Nat)} (inside : reader.openTags = (name, number) :: outer) :
    Rooted (tagsOf listing) (chainOf outer) := by
  have around := standing.around
  rw [Reader.chain, inside, chainOf_cons] at around
  exact around.of_concat

/-- A new tag stands in the chain of the open ones, with its own style last. -/
theorem element (standing : Standing listing reader) (name : String)
    (attributes : Markup.Attributes) (stays : Bool) :
    Standing (listing ++ [⟨.tag name, attributes, reader.chain ++ [⟨reader.count⟩]⟩])
      (reader.meet name stays) := by
  let tag : Origin := ⟨.tag name, attributes, reader.chain ++ [⟨reader.count⟩]⟩
  have tags : tagsOf (listing ++ [tag]) = tagsOf listing ++ [tag] := tagsOf_append ..
  have here : (tagsOf listing ++ [tag])[reader.count]? = some tag := by
    rw [standing.counted, List.getElem?_concat_length]
  have own : Rooted (tagsOf listing ++ [tag]) (reader.chain ++ [⟨reader.count⟩]) := by
    refine .inside (standing.around.mono _) (fun older member => ?_) here rfl
    exact standing.counted ▸ standing.around.lt_length older member
  refine ⟨⟨fun number other found => ?_, ?_⟩, ?_, ?_⟩
  · rw [tags] at found
    obtain old | ⟨offset, rfl, there⟩ := Document.getElem?_append_cases found
    · exact standing.owned number other old
    · obtain rfl : offset = 0 := by simpa using (List.getElem?_eq_some_iff.1 there).1
      obtain rfl := List.mem_singleton.1 (List.mem_of_getElem? there)
      rw [Nat.add_zero, ← standing.counted, List.getLast?_concat]
  · rw [tags]
    exact List.forall_mem_append.2
      ⟨fun entry member => (standing.rooted entry member).mono _, List.forall_mem_singleton.2 own⟩
  · rw [tags, List.length_append, ← standing.counted]
    rfl
  · rw [tags]
    cases stays with
    | false => exact standing.around.mono _
    | true =>
        rw [Reader.chain, Reader.meet, if_pos rfl, chainOf_cons]
        exact own

/-- The chains make up a forest after every step. -/
theorem step (standing : Standing listing reader) (step : Step reader added after) :
    Standing (listing ++ added) after := by
  cases step with
  | still raw => exact standing.addMarks rfl standing.around (List.forall_mem_nil _)
  | lineBreak =>
      exact standing.addMarks rfl standing.around (List.forall_mem_singleton.2 ⟨rfl, rfl⟩)
  | element name attributes stays => exact standing.element name attributes stays
  | close inside => exact standing.addMarks rfl (standing.outer inside) (List.forall_mem_nil _)
  | mark inside =>
      exact standing.addMarks rfl (standing.outer inside)
        (List.forall_mem_singleton.2 ⟨rfl, rfl⟩)
  | write raw count =>
      exact standing.addMarks rfl standing.around fun _ => Document.of_mem_written

/-- The listing stays a forest through any tokens. -/
theorem foldl_take {assembly : Assembly}
    (standing : Standing assembly.document.listing assembly.reader) (settings : Settings)
    (tokens : List Markup.Token) :
    Standing (tokens.foldl (Assembly.take settings) assembly).document.listing
      (tokens.foldl (Assembly.take settings) assembly).reader :=
  Assembly.foldl_take_keeps Standing.step standing settings tokens

end Standing

/-- The page after a click.  Where there is nothing to click it stays as it is. -/
def afterClick (page : Page) (id : ElementId) : Page :=
  match page.click id with
  | .error _ => page
  | .ok (after, _) => after

/-- The page after some clicks, one by one. -/
def afterClicks (page : Page) (ids : List ElementId) : Page :=
  ids.foldl afterClick page

/-- The chains of the page make up a forest, and each tag has a style. -/
structure Styled (page : Page) : Prop extends IsForest page.document.listing where
  /-- There are as many styles as tags. -/
  styles_size : page.styles.size = (tagsOf page.document.listing).length

/-- Every page is styled. -/
theorem styled_parse (settings : Settings) (markup : String) : (parse settings markup).Styled := by
  have begun : Standing (Assembly.document {}).listing (Assembly.reader {}) := Standing.empty
  have standing := begun.foldl_take settings (Markup.Token.ofMarkup markup)
  exact ⟨standing.toIsForest, standing.counted⟩

namespace Styled

variable {page : Page}

/-- A script that runs in the chain of an element writes its text there. -/
theorem runScript (styled : page.Styled) {element : Element}
    (member : element ∈ page.document.elements) (source : String) :
    (page.runScript source element.chain).1.Styled := by
  have framed : Document.Framed element.chain page.document
      (page.runScript source element.chain).1.document :=
    (Script.admits_framed element.chain).run source page.environment page.document
  obtain ⟨count, grown⟩ := framed.exists_listing
  have around : Rooted (tagsOf page.document.listing) element.chain :=
    styled.rooted element.origin (List.mem_map_of_mem member)
  obtain ⟨same, forest⟩ := styled.toIsForest.append around fun _ => Document.of_mem_written
  refine ⟨grown ▸ forest, ?_⟩
  rw [grown, same]
  exact styled.styles_size

theorem afterClick (styled : page.Styled) (id : ElementId) : (page.afterClick id).Styled := by
  rw [Page.afterClick, click]
  cases found : page.document.find? id with
  | none => exact styled
  | some element =>
      simp only
      cases element.clickHandler? with
      | none => exact styled
      | some handler => exact styled.runScript (List.mem_of_find?_eq_some found) handler

/-- A page stays styled through any clicks. -/
theorem afterClicks (styled : page.Styled) (ids : List ElementId) :
    (page.afterClicks ids).Styled := by
  induction ids generalizing page with
  | nil => exact styled
  | cons id rest ih => exact ih (styled.afterClick id)

end Styled

/-- Whatever the markup and the clicks, each tag refers last to the style with its own number, and
there are no other styles.  Every chain is increasing, each part of it from the outside in is the
whole chain of the tag it refers to last, and the computed style merges all styles it refers to. -/
theorem chains_afterClicks (settings : Settings) (markup : String) (ids : List ElementId) :
    let page := (parse settings markup).afterClicks ids
    let tags := page.document.elements.filter (·.kind.isTag)
    page.styles.size = tags.length ∧
      (∀ (number : Nat) (tag : Element), tags[number]? = some tag →
        tag.chain.getLast? = some ⟨number⟩) ∧
      ∀ element ∈ page.document.elements,
        element.chain.Pairwise (·.index < ·.index) ∧
          (∀ ref ∈ element.chain, ref.index < page.styles.size) ∧
          (∀ outer ref, outer ++ [ref] <+: element.chain →
            ∃ tag, tags[ref.index]? = some tag ∧ tag.chain = outer ++ [ref]) ∧
          ∃ layers, element.chain.map page.styles.get? = layers.map some ∧
            page.computedStyle element = Properties.mergeAll layers := by
  intro page tags
  have styled : page.Styled := (styled_parse settings markup).afterClicks ids
  have listed : tagsOf page.document.listing = tags.map Element.origin :=
    Document.tagsOf_listing page.document
  have size : page.styles.size = tags.length := by
    rw [styled.styles_size, listed, List.length_map]
  refine ⟨size, fun number tag found => ?_, fun element member => ?_⟩
  · refine styled.owned number tag.origin ?_
    rw [listed, List.getElem?_map, found]
    rfl
  · have rooted : Rooted (tagsOf page.document.listing) element.chain :=
      styled.rooted element.origin (List.mem_map_of_mem member)
    have inside : ∀ ref ∈ element.chain, ref.index < page.styles.size :=
      styled.styles_size ▸ rooted.lt_length
    refine ⟨rooted.increasing, inside, fun outer ref front => ?_,
      ResolvedStyles.exists_layers inside⟩
    obtain ⟨origin, found, chain_eq⟩ := rooted.exists_tag front
    rw [listed, List.getElem?_map] at found
    obtain ⟨tag, there, rfl⟩ := Option.map_eq_some_iff.1 found
    exact ⟨tag, there, chain_eq⟩

/-- An end tag that is not that of the innermost tag leaves the chains as they are. -/
example :
    (parse {} "<div><p>a</div><br><b>c</b></p>d").document.elements.map (·.chain.map (·.index)) =
      [[0], [0, 1], [0, 1], [0, 1, 2], [0]] := by
  decide +kernel

end Page
end Pagelet
