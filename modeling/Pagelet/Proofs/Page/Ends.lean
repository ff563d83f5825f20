import Mathlib.Order.Interval.Set.Defs
import Pagelet.Proofs.Page.Chains

/-!
# Ends of blocks

A mark at the end of a block stands in the chain of the tag that it closes, without the style of
that tag.  Everything from the element of the tag up to the mark refers to this style, and nothing
before or behind does, so a tag that is closed stays closed and no two marks close the same.
-/

namespace Pagelet

open Document (Origin tagsOf)
open Style (StyleRef)

namespace Document

variable {listing added : List Origin} {name : String} {outer : List StyleRef} {ref : StyleRef}
  {start index : Nat}

/-- The elements that refer to the style are those at these places. -/
def Covers (listing : List Origin) (ref : StyleRef) (places : Set Nat) : Prop :=
  ∀ (place : Nat) (entry : Origin), listing[place]? = some entry →
    (ref ∈ entry.chain ↔ place ∈ places)

/-- A style is referred to as before if what is added refers to it where it should. -/
theorem Covers.append {places : Set Nat} (covers : Covers listing ref places)
    (behind : ∀ entry ∈ added, ∀ place ≥ listing.length, (ref ∈ entry.chain ↔ place ∈ places)) :
    Covers (listing ++ added) ref places := by
  intro place entry found
  obtain inside | ⟨offset, rfl, there⟩ := getElem?_append_cases found
  · exact covers place entry inside
  · exact behind entry (List.mem_of_getElem? there) _ (Nat.le_add_right _ offset)

/-- A tag is open whose element is at this place. -/
structure OpenSince (listing : List Origin) (start : Nat) (name : String)
    (outer : List StyleRef) (ref : StyleRef) : Prop where
  /-- The element of the tag refers to its own style last. -/
  opener : ∃ attributes, listing[start]? = some ⟨.tag name, attributes, outer ++ [ref]⟩
  /-- Everything from the tag on refers to its style. -/
  covers : Covers listing ref (Set.Ici start)

/-- The element at the second place marks the end of the tag whose element is at the first. -/
structure Ends (listing : List Origin) (start index : Nat) (ref : StyleRef) : Prop where
  /-- The element of the tag comes first. -/
  earlier : start < index
  /-- The mark has the name of the tag and the chain around it. -/
  pair : ∃ name attributes outer,
    listing[start]? = some ⟨.tag name, attributes, outer ++ [ref]⟩ ∧
      listing[index]? = some ⟨.blockEnd name, [], outer⟩
  /-- Everything from the tag up to the mark refers to the style of the tag, and nothing else. -/
  covers : Covers listing ref (Set.Ico start index)

namespace OpenSince

/-- An element of a new tag, to whose style nothing refers so far. -/
theorem element (fresh : ∀ entry ∈ listing, ref ∉ entry.chain) (name : String)
    (attributes : Markup.Attributes) (outer : List StyleRef) :
    OpenSince (listing ++ [⟨.tag name, attributes, outer ++ [ref]⟩]) listing.length name outer
      ref where
  opener := ⟨attributes, List.getElem?_concat_length⟩
  covers := by
    refine Covers.append (fun place entry found => ?_) ?_
    · have below := (List.getElem?_eq_some_iff.1 found).1
      exact iff_of_false (fresh entry (List.mem_of_getElem? found)) (Nat.not_le.2 below)
    · exact List.forall_mem_singleton.2 fun place behind => iff_of_true (by simp) behind

/-- An open tag stands inside the listing. -/
theorem lt_length (isOpen : OpenSince listing start name outer ref) : start < listing.length :=
  isOpen.opener.elim fun _ found => (List.getElem?_eq_some_iff.1 found).1

/-- The tag is still open when all that is added refers to its style. -/
theorem append (isOpen : OpenSince listing start name outer ref)
    (inside : ∀ entry ∈ added, ref ∈ entry.chain) :
    OpenSince (listing ++ added) start name outer ref where
  opener := isOpen.opener.imp fun _ found => getElem?_append_of_some found added
  covers := isOpen.covers.append fun entry member _ behind =>
    iff_of_true (inside entry member) (Nat.le_trans (Nat.le_of_lt isOpen.lt_length) behind)

/-- The tag ends where its end is marked. -/
theorem ends (isOpen : OpenSince listing start name outer ref) (own : ref ∉ outer) :
    Ends (listing ++ [⟨.blockEnd name, [], outer⟩]) start listing.length ref where
  earlier := isOpen.lt_length
  pair := by
    obtain ⟨attributes, found⟩ := isOpen.opener
    exact ⟨name, attributes, outer, getElem?_append_of_some found _, List.getElem?_concat_length⟩
  covers := by
    refine Covers.append (fun place entry found => ?_) ?_
    · have below := (List.getElem?_eq_some_iff.1 found).1
      rw [isOpen.covers place entry found, Set.mem_Ici, Set.mem_Ico]
      exact (and_iff_left below).symm
    · refine List.forall_mem_singleton.2 fun place behind => iff_of_false own fun inside => ?_
      exact Nat.not_lt.2 behind inside.2

end OpenSince

namespace Ends

/-- The end stays one when nothing that is added refers to the style. -/
theorem append (ends : Ends listing start index ref)
    (outside : ∀ entry ∈ added, ref ∉ entry.chain) :
    Ends (listing ++ added) start index ref where
  earlier := ends.earlier
  pair := by
    obtain ⟨name, attributes, outer, opener, marker⟩ := ends.pair
    exact ⟨name, attributes, outer, getElem?_append_of_some opener _,
      getElem?_append_of_some marker _⟩
  covers := by
    obtain ⟨_, _, _, -, marker⟩ := ends.pair
    have inside := (List.getElem?_eq_some_iff.1 marker).1
    refine ends.covers.append fun entry member place behind => ?_
    refine iff_of_false (outside entry member) fun between => ?_
    exact Nat.not_lt.2 (Nat.le_trans (Nat.le_of_lt inside) behind) between.2

/-- Of two marks for the same tag the second is not behind the first. -/
theorem le {other second : Nat} (ends : Ends listing start index ref)
    (same : Ends listing other second ref) : second ≤ index := by
  obtain ⟨name, attributes, outer, opener, marker⟩ := ends.pair
  have begun : start ∈ Set.Ico other second :=
    (same.covers start _ opener).1 ((ends.covers start _ opener).2 ⟨Nat.le_refl _, ends.earlier⟩)
  by_contra later
  have between : index ∈ Set.Ico other second :=
    ⟨Nat.le_trans begun.1 (Nat.le_of_lt ends.earlier), Nat.not_le.1 later⟩
  have inside := (ends.covers index _ marker).1 ((same.covers index _ marker).2 between)
  exact Nat.lt_irrefl index inside.2

/-- No two marks end the same tag. -/
theorem unique {other second : Nat} (ends : Ends listing start index ref)
    (same : Ends listing other second ref) : index = second :=
  Nat.le_antisymm (same.le ends) (ends.le same)

end Ends

end Document

namespace Page

open Document (Ends OpenSince)

variable {listing added : List Origin} {reader after : Reader} {ref : StyleRef}

/-- The style is that of a tag that has been met and is not open. -/
structure Reader.Past (reader : Reader) (ref : StyleRef) : Prop where
  /-- The tag has been met. -/
  met : ref.index < reader.count
  /-- The tag is not open. -/
  closed : ref ∉ reader.chain

/-- No step reopens a closed tag, and nothing that is added refers to its style. -/
theorem Reader.Past.step (past : reader.Past ref) (step : Step reader added after) :
    after.Past ref ∧ ∀ entry ∈ added, ref ∉ entry.chain := by
  have outside {name : String} {number : Nat} {outer : List (String × Nat)}
      (inside : reader.openTags = (name, number) :: outer) : ref ∉ chainOf outer := by
    have closed := past.closed
    rw [Reader.chain, inside, chainOf_cons] at closed
    exact fun member => closed (List.mem_append_left _ member)
  cases step with
  | still raw => exact ⟨⟨past.met, past.closed⟩, List.forall_mem_nil _⟩
  | lineBreak => exact ⟨past, List.forall_mem_singleton.2 past.closed⟩
  | element name attributes stays =>
      have other : ref ∉ reader.chain ++ [⟨reader.count⟩] := by
        rw [List.mem_append, List.mem_singleton, not_or]
        exact ⟨past.closed, fun same => Nat.ne_of_lt past.met (congrArg StyleRef.index same)⟩
      refine ⟨⟨Nat.lt_succ_of_lt past.met, ?_⟩, List.forall_mem_singleton.2 other⟩
      cases stays with
      | false => exact past.closed
      | true =>
          rw [Reader.chain, Reader.meet, if_pos rfl, chainOf_cons]
          exact other
  | close inside => exact ⟨⟨past.met, outside inside⟩, List.forall_mem_nil _⟩
  | mark inside =>
      exact ⟨⟨past.met, outside inside⟩, List.forall_mem_singleton.2 (outside inside)⟩
  | write raw count =>
      refine ⟨⟨past.met, past.closed⟩, fun entry member => ?_⟩
      rw [(Document.of_mem_written member).2]
      exact past.closed

/-- Only the end of the innermost tag is marked. -/
theorem Step.mark_of_mem (step : Step reader added after) {marker : Origin} {name : String}
    (member : marker ∈ added) (kind_eq : marker.kind = .blockEnd name) :
    ∃ number outer, reader.openTags = (name, number) :: outer ∧
      added = [⟨.blockEnd name, [], chainOf outer⟩] ∧
        after = { reader with openTags := outer } := by
  cases step with
  | still | close => simp at member
  | lineBreak | element =>
      obtain rfl := List.mem_singleton.1 member
      simp at kind_eq
  | mark inside =>
      obtain rfl := List.mem_singleton.1 member
      obtain rfl := Document.ElementKind.blockEnd.inj kind_eq
      exact ⟨_, _, inside, rfl, rfl⟩
  | write =>
      obtain rfl := List.eq_of_mem_replicate member
      simp at kind_eq

/-- Every open tag is open since its element. -/
def AllOpen (listing : List Origin) : List (String × Nat) → Prop
  | [] => True
  | (name, number) :: outer =>
      (∃ start, OpenSince listing start name (chainOf outer) ⟨number⟩) ∧ AllOpen listing outer

/-- Tags stay open as long as all that is added refers to their styles. -/
theorem AllOpen.append {openTags : List (String × Nat)} (allOpen : AllOpen listing openTags)
    (inside : ∀ entry ∈ added, ∀ ref ∈ chainOf openTags, ref ∈ entry.chain) :
    AllOpen (listing ++ added) openTags := by
  induction openTags with
  | nil => trivial
  | cons tag outer ih =>
      obtain ⟨name, number⟩ := tag
      rw [chainOf_cons] at inside
      obtain ⟨⟨start, opened⟩, others⟩ := allOpen
      refine ⟨⟨start, opened.append fun entry member => ?_⟩, ih others fun entry member => ?_⟩
      · exact inside entry member ⟨number⟩ (List.mem_append_right _ (List.mem_singleton_self _))
      · exact fun ref around => inside entry member ref (List.mem_append_left _ around)

/-- The open tags are open since their elements, and every mark ends a tag that is closed. -/
structure Paired (listing : List Origin) (reader : Reader) : Prop
    extends Standing listing reader where
  /-- The open tags are open since their elements. -/
  opened : AllOpen listing reader.openTags
  /-- Every mark ends a tag, which is not open any more. -/
  ended : ∀ (index : Nat) (marker : Origin) (name : String), listing[index]? = some marker →
    marker.kind = .blockEnd name → ∃ start ref, Ends listing start index ref ∧ reader.Past ref

namespace Paired

/-- Nothing is open on an empty page. -/
theorem empty : Paired [] {} where
  toStanding := .empty
  opened := trivial
  ended _ _ _ found := absurd found (by simp)

/-- Nothing refers to the style of the next tag. -/
theorem fresh (paired : Paired listing reader) :
    ∀ entry ∈ listing, ⟨reader.count⟩ ∉ entry.chain := by
  intro entry member refers
  have below := (paired.rooted entry member).lt_length _ refers
  exact Nat.ne_of_lt below paired.counted

/-- Behind a step, the tags that the reader keeps open are open in the listing. -/
theorem opened_step (paired : Paired listing reader) (step : Step reader added after) :
    AllOpen (listing ++ added) after.openTags := by
  have opened := paired.opened
  cases step with
  | still raw => exact opened.append (List.forall_mem_nil _)
  | lineBreak => exact opened.append (List.forall_mem_singleton.2 fun ref member => member)
  | element name attributes stays =>
      have others : AllOpen (listing ++ [⟨.tag name, attributes, reader.chain ++ [⟨reader.count⟩]⟩])
          reader.openTags :=
        opened.append (List.forall_mem_singleton.2 fun ref member => List.mem_append_left _ member)
      cases stays with
      | false => exact others
      | true => exact ⟨⟨listing.length, .element paired.fresh name attributes reader.chain⟩, others⟩
  | close inside =>
      rw [inside] at opened
      exact opened.2.append (List.forall_mem_nil _)
  | mark inside =>
      rw [inside] at opened
      exact opened.2.append (List.forall_mem_singleton.2 fun ref member => member)
  | write raw count =>
      refine opened.append fun entry member ref around => ?_
      rw [(Document.of_mem_written member).2]
      exact around

/-- Every mark that a step adds ends a tag that was open and is past now. -/
theorem ended_step (paired : Paired listing reader) (step : Step reader added after)
    {index : Nat} {marker : Origin} {name : String}
    (found : (listing ++ added)[index]? = some marker) (kind_eq : marker.kind = .blockEnd name) :
    ∃ start ref, Ends (listing ++ added) start index ref ∧ after.Past ref := by
  obtain old | ⟨offset, rfl, there⟩ := Document.getElem?_append_cases found
  · obtain ⟨start, ref, ends, past⟩ := paired.ended index marker name old kind_eq
    obtain ⟨stillPast, outside⟩ := past.step step
    exact ⟨start, ref, ends.append outside, stillPast⟩
  · obtain ⟨number, outer, inside, rfl, rfl⟩ :=
      step.mark_of_mem (List.mem_of_getElem? there) kind_eq
    obtain rfl : offset = 0 := by simpa using (List.getElem?_eq_some_iff.1 there).1
    have opened := paired.opened
    have around := paired.around
    rw [inside] at opened
    rw [Reader.chain, inside, chainOf_cons] at around
    obtain ⟨⟨start, isOpen⟩, -⟩ := opened
    -- the innermost tag is younger than those around it, so its style is none of theirs
    have own : ⟨number⟩ ∉ chainOf outer := fun member =>
      Nat.lt_irrefl number ((List.pairwise_append.1 around.increasing).2.2 _ member _
        (List.mem_singleton_self _))
    refine ⟨start, ⟨number⟩, isOpen.ends own, ?_, own⟩
    exact paired.counted ▸ around.lt_length _ (List.mem_append_right _ (List.mem_singleton_self _))

/-- Tags and marks are paired after every step. -/
theorem step (paired : Paired listing reader) (step : Step reader added after) :
    Paired (listing ++ added) after where
  toStanding := paired.toStanding.step step
  opened := paired.opened_step step
  ended _ _ _ found kind_eq := paired.ended_step step found kind_eq

end Paired

/-- Whatever end tags the markup has or lacks, every mark at the end of a block ends a tag, whose
number is that of the style it refers to last, and no two marks end the same tag. -/
theorem ends_blockEnd (settings : Settings) (markup : String) :
    let listing := (parse settings markup).document.listing
    (∀ (index : Nat) (marker : Origin) (name : String), listing[index]? = some marker →
      marker.kind = .blockEnd name →
        ∃ start ref, Ends listing start index ref ∧
          (tagsOf listing)[ref.index]? = listing[start]?) ∧
      ∀ (ref : StyleRef) (start index other second : Nat),
        Ends listing start index ref → Ends listing other second ref → index = second := by
  intro listing
  have begun : Paired (Assembly.document {}).listing (Assembly.reader {}) := Paired.empty
  have paired : Paired listing
      (Assembly.ofTokens settings (Markup.Token.ofMarkup markup)).reader :=
    Assembly.foldl_take_keeps Paired.step begun settings (Markup.Token.ofMarkup markup)
  refine ⟨fun index marker name found kind_eq => ?_, fun _ _ _ _ _ => Ends.unique⟩
  obtain ⟨start, ref, ends, -⟩ := paired.ended index marker name found kind_eq
  refine ⟨start, ref, ends, ?_⟩
  obtain ⟨name, attributes, outer, opener, -⟩ := ends.pair
  rw [opener]
  exact paired.getElem?_tagsOf (List.mem_of_getElem? opener) rfl List.getLast?_concat

/-- A mark stands where the innermost tag ends, and for no other end tag. -/
example :
    (parse {} "<div><p>a</div></p>b</p></div>").document.listing.map
        (fun entry => (entry.kind, entry.chain.map (·.index))) =
      [(.tag "div", [0]), (.tag "p", [0, 1]), (.blockEnd "p", [0]), (.blockEnd "div", [])] := by
  decide +kernel

end Page
end Pagelet
