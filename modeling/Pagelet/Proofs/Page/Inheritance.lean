import Mathlib.Data.List.Forall2
import Pagelet.Proofs.Document.Unscripted
import Pagelet.Proofs.Page.RawBodies
import Pagelet.Proofs.Style.Precedence

/-!
# What elements inherit

A reader of the markup who keeps nothing but the sheets closed so far and the tags open around
knows the style of every element.  A start tag sets what its own `style` attribute and the rules
known there give it; what it does not set comes from the innermost tag around it that does.  The
assembly, which resolves each tag once and refers to the result by number, comes to the same.
-/

namespace Pagelet

open Markup (Attributes Segment Token)
open Style (FirstGives Properties Property ResolvedStyles RuleTable StyleRef
  findSome?_eq_some_iff_firstGives get?_resolve_eq_some_iff)

namespace Document

/-- What an element has from its start tag, and what its style hangs on. -/
structure Origin where
  /-- The kind. -/
  kind : ElementKind
  /-- The attributes. -/
  attributes : Attributes
  /-- The style references. -/
  chain : List StyleRef
deriving DecidableEq, Repr

/-- The origin of an element. -/
def Element.origin (element : Element) : Origin :=
  ⟨element.kind, element.attributes, element.chain⟩

/-- Whether the element is that of a start tag. -/
def ElementKind.isTag (kind : ElementKind) : Bool :=
  kind.tagName?.isSome

/-- The origins of the elements of start tags, in order. -/
def origins (document : Document) : List Origin :=
  (document.elements.filter (·.kind.isTag)).map Element.origin

theorem origins_eq_filterMap (document : Document) :
    document.origins =
      document.elements.filterMap fun element =>
        if element.kind.isTag then some element.origin else none := by
  rw [origins, ← List.filterMap_eq_map, List.filterMap_filter]
  rfl

/-- A new element adds its origin if it is a tag. -/
theorem origins_add (document : Document) (draft : Draft) :
    (document.add draft).origins =
      document.origins ++
        if draft.kind.isTag then [⟨draft.kind, draft.attributes, draft.chain⟩] else [] := by
  rw [origins, add, List.filter_append, List.map_append]
  have kindEq : (document.realize draft).kind = draft.kind := rfl
  split
  · next isTag =>
    rw [List.filter_singleton, kindEq, isTag]
    rfl
  · next other =>
    rw [List.filter_singleton, kindEq, Bool.eq_false_of_not_eq_true other]
    rfl

/-- A fragment changes no origin. -/
theorem origins_append (document : Document) (index : Nat) (fragment : String)
    (separated : Bool) :
    (document.append index fragment separated).origins = document.origins := by
  rw [origins_eq_filterMap, origins_eq_filterMap, append_eq]
  rcases Nat.lt_or_ge index document.elements.length with inside | outside
  · obtain ⟨before, here, behind, whole, -, changed⟩ :=
      List.exists_of_modify (·.append fragment separated) inside
    rw [changed, whole, List.filterMap_append, List.filterMap_append]
    rfl
  · rw [List.modify_eq_self outside]

/-- Within its frame a script changes no origin. -/
theorem Framed.origins_eq {chain : List StyleRef} {before after : Document}
    (framed : Framed chain before after) : after.origins = before.origins := by
  rw [origins_eq_filterMap, origins_eq_filterMap]
  refine framed.filterMap_eq (fun {first second} same => ?_) fun element written => ?_
  · simp only [Element.origin, same.kind_eq, same.attributes_eq, same.chain_eq]
  · rw [written.kind_eq]
    rfl

end Document

namespace Page

open Document (Draft Element Origin)

/-- The rules of some sheets, in order. -/
def tableOf (sheets : List String) : RuleTable :=
  sheets.foldl (fun table sheet => (table.addSheet sheet).1) {}

/-- A start tag, with the sheets that are closed before it. -/
structure Opening where
  /-- The name. -/
  name : String
  /-- The attributes. -/
  attributes : Attributes
  /-- The sheets, in order. -/
  sheets : List String
deriving DecidableEq, Repr

/-- The start tag itself gives the value to the property: its `style` attribute does, else the rule
of its id, else the rule of its first class, else the rule of its name, in the sheets that are
closed before it. -/
def Opening.Gives (opening : Opening) (property : Property) : property.Value → Prop :=
  (tableOf opening.sheets).Gives opening.name opening.attributes property

/-- A start tag with the tags that are open around it. -/
structure Lineage where
  /-- The start tag. -/
  own : Opening
  /-- The tags around it, the innermost first. -/
  outer : List Opening
deriving DecidableEq, Repr

/-- The property has the value at the innermost tag that gives it one. -/
def Lineage.Gives (lineage : Lineage) (property : Property) : property.Value → Prop :=
  FirstGives (fun opening => opening.Gives property) (lineage.own :: lineage.outer)

/-- What stands around a place in the markup. -/
structure Surroundings where
  /-- The sheets that are closed before it, in order. -/
  sheets : List String := []
  /-- The tags that are open there, the innermost first. -/
  openings : List Opening := []
deriving DecidableEq, Repr

namespace Surroundings

/-- The lineage of the element that a segment adds.  Sheets, scripts and line breaks have
none. -/
def lineage? (around : Surroundings) : Segment → Option Lineage
  | .start _ name attributes _ =>
      if name ∈ Markup.rawNames ∨ name = "br" then none
      else some ⟨⟨name, attributes, around.sheets⟩, around.openings⟩
  | _ => none

/-- What stands around the place behind a segment. -/
def pass (around : Surroundings) : Segment → Surroundings
  | .start _ name attributes selfClosing =>
      if selfClosing || Markup.isVoid name then around
      else { around with openings := ⟨name, attributes, around.sheets⟩ :: around.openings }
  | .finish _ name =>
      match around.openings with
      | [] => around
      | opening :: outer =>
          if opening.name = name then { around with openings := outer } else around
  | .raw _ name _ body (some _) =>
      if name = "style" then { around with sheets := around.sheets ++ [String.ofList body] }
      else around
  | _ => around

/-- The lineages of the elements that some segments add, in order. -/
def lineages (around : Surroundings) (segments : List Segment) : List Lineage :=
  (trail pass around segments).filterMap fun (around, segment) => around.lineage? segment

theorem lineages_cons (around : Surroundings) (segment : Segment) (rest : List Segment) :
    around.lineages (segment :: rest) =
      (around.lineage? segment).toList ++ (around.pass segment).lineages rest := by
  rw [lineages, trail]
  cases found : around.lineage? segment with
  | none => exact List.filterMap_cons_none found
  | some lineage => exact List.filterMap_cons_some found

/-- A sheet counts for the tags behind it alone, and a tag without content has none inside. -/
example :
    (lineages {}
      [ .start [] "div" [] false, .start [] "img" [] false,
        .raw [] "style" [] ['p', '{', '}'] (some []), .start [] "p" [] false ]).map
        (fun lineage => (lineage.own.name, lineage.own.sheets, lineage.outer.map (·.name))) =
      [("div", [], []), ("img", [], ["div"]), ("p", ["p\x7b\x7d"], ["div"])] := by
  decide

end Surroundings

/-- The resolved style of the start tag. -/
def Opening.style (opening : Opening) : Properties :=
  (tableOf opening.sheets).resolve opening.name opening.attributes

/-- The reference is to the resolved style of the start tag. -/
def Refers (styles : ResolvedStyles) (ref : StyleRef) (opening : Opening) : Prop :=
  styles.get? ref = some opening.style

/-- The element is that of the start tag, and its chain refers to the styles of its lineage. -/
structure Describes (styles : ResolvedStyles) (origin : Origin) (lineage : Lineage) : Prop where
  /-- The element has the name of the tag. -/
  kind_eq : origin.kind = .tag lineage.own.name
  /-- The element has the attributes of the tag. -/
  attributes_eq : origin.attributes = lineage.own.attributes
  /-- The chain refers to the tag and to the tags around it, the innermost last. -/
  chain : List.Forall₂ (Refers styles) origin.chain.reverse (lineage.own :: lineage.outer)

section References

variable {styles : ResolvedStyles} {ref : StyleRef} {opening : Opening}

/-- A style that is referred to stays the same when another is added. -/
theorem Refers.push (refers : Refers styles ref opening) (properties : Properties) :
    Refers (styles.push properties) ref opening :=
  (List.getElem?_append_left (List.getElem?_eq_some_iff.1 refers).1).trans refers

/-- The style of a new tag is the one referred to next. -/
theorem refers_nextRef (styles : ResolvedStyles) (opening : Opening) :
    Refers (styles.push opening.style) styles.nextRef opening :=
  List.getElem?_concat_length

theorem Describes.push {origin : Origin} {lineage : Lineage}
    (describes : Describes styles origin lineage) (properties : Properties) :
    Describes (styles.push properties) origin lineage :=
  { describes with chain := describes.chain.imp fun _ _ refers => refers.push properties }

/-- What a chain of references gives to a property is what the tags give to it. -/
theorem findSome?_eq_some_iff {refs : List StyleRef} {openings : List Opening}
    (refer : List.Forall₂ (Refers styles) refs openings) {property : Property}
    {value : property.Value} :
    (refs.findSome? fun ref => (styles.get? ref).bind (·.get? property)) = some value ↔
      FirstGives (fun opening => opening.Gives property) openings value := by
  have resolved : (refs.findSome? fun ref => (styles.get? ref).bind (·.get? property)) =
      openings.findSome? fun opening => opening.style.get? property := by
    induction refer with
    | nil => rfl
    | cons refers _ ih =>
        rw [List.findSome?_cons, List.findSome?_cons, refers, Option.bind_some, ih]
  rw [resolved]
  exact findSome?_eq_some_iff_firstGives fun opening value => get?_resolve_eq_some_iff

end References

/-! ## The assembly follows the reader -/

/-- The assembly knows what a reader knows who has come to the same place and has met the given
lineages. -/
structure Follows (assembly : Assembly) (around : Surroundings) (met : List Lineage) : Prop where
  /-- The rules are those of the closed sheets. -/
  rules_eq : assembly.rules = tableOf around.sheets
  /-- The same tags are open, and refer to their styles. -/
  opened : List.Forall₂ (fun tag opening => tag.name = opening.name ∧
    Refers assembly.styles tag.style opening) assembly.openTags around.openings
  /-- The elements of start tags are those of the lineages. -/
  listed : List.Forall₂ (Describes assembly.styles) assembly.document.origins met

namespace Follows

variable {assembly : Assembly} {around : Surroundings} {met : List Lineage}

/-- The chain refers to the open tags. -/
theorem chain (follows : Follows assembly around met) :
    List.Forall₂ (Refers assembly.styles) assembly.chain.reverse around.openings := by
  rw [Assembly.chain, List.reverse_reverse]
  exact List.forall₂_map_left_iff.2 (follows.opened.imp fun _ _ same => same.2)

/-- A document with the same elements of start tags is as good. -/
theorem setDocument (follows : Follows assembly around met) {document : Document}
    (same : document.origins = assembly.document.origins) :
    Follows { assembly with document } around met :=
  { follows with listed := same ▸ follows.listed }

/-- An element that is not that of a start tag makes no difference. -/
theorem addMark (follows : Follows assembly around met) {draft : Draft}
    (other : draft.kind.isTag = false) :
    Follows { assembly with document := assembly.document.add draft } around met :=
  follows.setDocument (by rw [Document.origins_add, other, if_neg Bool.false_ne_true,
    List.append_nil])

/-- A space that is due does not matter for styles. -/
theorem notePending (follows : Follows assembly around met) {tag : OpenTag} {outer : List OpenTag}
    (inside : assembly.openTags = tag :: outer) (pendingSpace : Bool) :
    Follows { assembly with openTags := { tag with pendingSpace } :: outer } around met := by
  have opened := follows.opened
  rw [inside, List.forall₂_cons_left_iff] at opened
  obtain ⟨opening, rest, same, others, whole⟩ := opened
  exact { follows with opened := whole ▸ .cons same others }

theorem addText (follows : Follows assembly around met) (text : String) :
    Follows (assembly.addText text) around met := by
  cases inside : assembly.openTags with
  | nil => rwa [Assembly.addText_of_outside inside]
  | cons tag outer =>
      cases blank : (Text.trim text.toList).isEmpty with
      | true =>
          rw [Assembly.addText_of_blank inside blank]
          exact follows.notePending inside _
      | false =>
          rw [Assembly.addText_of_visible inside blank]
          exact (follows.setDocument (Document.origins_append ..)).notePending inside _

/-- A closed tag is taken off the open ones, with those inside it. -/
theorem closeElement (follows : Follows assembly around met) (source : List Char)
    (name : String) :
    Follows (assembly.closeElement name) (around.pass (.finish source name)) met := by
  have opened := follows.opened
  rw [Assembly.closeElement, Surroundings.pass]
  cases inside : assembly.openTags with
  | nil =>
      rw [inside, List.forall₂_nil_left_iff] at opened
      rw [opened]
      exact follows
  | cons tag outer =>
      rw [inside, List.forall₂_cons_left_iff] at opened
      obtain ⟨opening, rest, same, others, whole⟩ := opened
      rw [whole]
      simp only [← same.1]
      split
      · have closed : Follows { assembly with openTags := outer }
            { around with openings := rest } met :=
          { follows with opened := others }
        split
        · exact closed.addMark rfl
        · exact closed
      · exact follows

/-- A start tag that has an element of its own. -/
theorem openElement (follows : Follows assembly around met) (name : String)
    (attributes : Attributes) (selfClosing : Bool) :
    let opening : Opening := ⟨name, attributes, around.sheets⟩
    Follows (assembly.openElement name attributes selfClosing)
      (if selfClosing || Markup.isVoid name then around
        else { around with openings := opening :: around.openings })
      (met ++ [⟨opening, around.openings⟩]) := by
  intro opening
  let properties := (tableOf around.sheets).resolve name attributes
  have refers : Refers (assembly.styles.push properties) assembly.styles.nextRef opening :=
    refers_nextRef assembly.styles opening
  have pushed : (assembly.openElement name attributes selfClosing).styles =
      assembly.styles.push properties := by
    rw [Assembly.openElement, follows.rules_eq]
  -- styles are only ever added behind the others, so older references stay right
  have outer := follows.opened.imp fun _ _ same =>
    And.intro same.1 (same.2.push properties)
  refine ⟨?_, ?_, ?_⟩
  · split <;> exact follows.rules_eq
  · rw [pushed, Assembly.openElement]
    split
    · exact outer
    · exact .cons ⟨rfl, refers⟩ outer
  · rw [pushed, Assembly.openElement, Document.origins_add]
    refine List.rel_append (follows.listed.imp fun _ _ describes => describes.push properties) ?_
    refine .cons ⟨rfl, rfl, ?_⟩ .nil
    rw [List.reverse_append, List.reverse_singleton, List.singleton_append]
    exact .cons refers (follows.chain.imp fun _ _ older => older.push properties)

/-- An ordinary start tag opens with the rules as they stand. -/
theorem startTag (follows : Follows assembly around met) (source : List Char) (name : String)
    (attributes : Attributes) {selfClosing : Bool}
    (ordinary : name ∈ Markup.rawNames → selfClosing = true) :
    let segment := Segment.start source name attributes selfClosing
    Follows (assembly.startTag name attributes selfClosing) (around.pass segment)
      (met ++ (around.lineage? segment).toList) := by
  intro segment
  by_cases raw : name ∈ Markup.rawNames
  · obtain rfl := ordinary raw
    have passed : around.pass segment = around := by simp [segment, Surroundings.pass]
    have unlisted : around.lineage? segment = none := by
      simp [segment, Surroundings.lineage?, raw]
    have taken : assembly.startTag name attributes true = assembly := by
      obtain rfl | rfl : name = "script" ∨ name = "style" := by simpa [Markup.rawNames] using raw
      all_goals rfl
    rw [passed, unlisted, taken, Option.toList_none, List.append_nil]
    exact follows
  · obtain ⟨noScript, noStyle⟩ : name ≠ "script" ∧ name ≠ "style" := by
      simpa [Markup.rawNames] using raw
    rw [Assembly.startTag, if_neg noStyle, if_neg noScript]
    split
    · next lineBreak =>
      subst lineBreak
      have passed : around.pass segment = around := by
        simp [segment, Surroundings.pass, Markup.isVoid, Markup.voidNames]
      have unlisted : around.lineage? segment = none := by
        simp [segment, Surroundings.lineage?]
      rw [passed, unlisted, Option.toList_none, List.append_nil]
      exact follows.addMark rfl
    · next noBreak =>
      have listed : around.lineage? segment =
          some ⟨⟨name, attributes, around.sheets⟩, around.openings⟩ :=
        if_neg (not_or.2 ⟨raw, noBreak⟩)
      rw [listed]
      exact follows.openElement name attributes selfClosing

/-- A sheet adds to the rules for the tags behind it. -/
theorem useSheet (follows : Follows assembly around met) (sheet : String) :
    Follows { assembly with rules := (assembly.rules.addSheet sheet).1 }
      { around with sheets := around.sheets ++ [sheet] } met := by
  have grown : (assembly.rules.addSheet sheet).1 = tableOf (around.sheets ++ [sheet]) := by
    rw [follows.rules_eq, tableOf, tableOf, List.foldl_append]
    rfl
  exact { follows with rules_eq := grown }

/-- A script neither opens tags nor adds rules. -/
theorem useScript (follows : Follows assembly around met) (settings : Settings) (source : String)
    (chain : List StyleRef) :
    Follows (Use.perform settings assembly (.script source chain)) around met := by
  rw [Use.perform]
  split
  · have framed : Document.Framed chain assembly.document
        (Script.run ⟨settings.limits, chain⟩ source assembly.environment
          assembly.document).document :=
      (Script.admits_framed chain).run source assembly.environment assembly.document
    exact { follows.setDocument framed.origins_eq with }
  · exact follows

/-- A raw element opens no tag: a sheet adds its rules, and a script is run. -/
theorem rawElement (follows : Follows assembly around met) (settings : Settings)
    (opening : List Char) {name : String} (isRaw : name ∈ Markup.rawNames)
    (attributes : Attributes) (body : List Char) (closing : Option (List Char)) :
    let segment := Segment.raw opening name attributes body closing
    Follows (assembly.absorb settings segment) (around.pass segment) met := by
  intro segment
  cases closing with
  | none => exact follows
  | some tag =>
      obtain rfl | rfl : name = "script" ∨ name = "style" := by simpa [Markup.rawNames] using isRaw
      · have passed : around.pass segment = around := rfl
        rw [passed, Assembly.absorb]
        cases external : attributes.any (·.1 == "src") with
        | true =>
            have unused : segmentUse? assembly.chain segment = none := by
              simp [segment, segmentUse?, external]
            rw [unused]
            exact follows
        | false =>
            have used : segmentUse? assembly.chain segment =
                some (.script (String.ofList body) assembly.chain) := by
              simp [segment, segmentUse?, external]
            rw [used]
            exact follows.useScript settings _ _
      · exact follows.useSheet (String.ofList body)

theorem meetNone (follows : Follows assembly around met) : Follows assembly around (met ++ []) := by
  rwa [List.append_nil]

/-- The assembly follows the reader over one segment. -/
theorem absorb (follows : Follows assembly around met) (settings : Settings) {segment : Segment}
    (proper : segment.Proper) :
    Follows (assembly.absorb settings segment) (around.pass segment)
      (met ++ (around.lineage? segment).toList) := by
  cases segment with
  | skipped source => exact follows.meetNone
  | text source => exact (follows.addText _).meetNone
  | finish source name => exact (follows.closeElement source name).meetNone
  | start source name attributes selfClosing =>
      exact follows.startTag source name attributes proper
  | raw opening name attributes body closing =>
      exact (follows.rawElement settings opening proper.1 attributes body closing).meetNone

/-- The assembly follows the reader to the end. -/
theorem foldl_absorb (follows : Follows assembly around met) (settings : Settings)
    {segments : List Segment} (proper : ∀ segment ∈ segments, segment.Proper) :
    Follows (segments.foldl (Assembly.absorb settings) assembly)
      (segments.foldl Surroundings.pass around) (met ++ around.lineages segments) := by
  induction segments generalizing assembly around met with
  | nil => simpa [Surroundings.lineages, trail] using follows
  | cons segment rest ih =>
      obtain ⟨first, others⟩ := List.forall_mem_cons.1 proper
      rw [Surroundings.lineages_cons, ← List.append_assoc]
      exact ih (follows.absorb settings first) others

end Follows

/-- Whatever the markup, the elements of start tags are those of its lineages in order, and the
computed style of each gives a property the value at the innermost tag of the lineage that gives it
one, by its own `style` attribute or the rules of the sheets closed before it.  A property to which
no tag gives a value has none. -/
theorem computedStyle_lineages (settings : Settings) (markup : String) :
    let page := parse settings markup
    List.Forall₂
      (fun element lineage =>
        element.kind = .tag lineage.own.name ∧ element.attributes = lineage.own.attributes ∧
          ∀ property value, (page.computedStyle element).get? property = some value ↔
            lineage.Gives property value)
      (page.document.elements.filter (·.kind.isTag))
      (Surroundings.lineages {} (Segment.ofMarkup markup)) := by
  intro page
  have begun : Follows {} {} [] := ⟨rfl, .nil, .nil⟩
  have followed := begun.foldl_absorb settings (Segment.linked_ofMarkup markup).proper
  have listed := followed.listed
  rw [Document.origins, List.forall₂_map_left_iff] at listed
  have assembled : page = _ := parse_eq_absorb settings markup
  rw [assembled]
  refine listed.imp fun element lineage describes => ?_
  refine ⟨describes.kind_eq, describes.attributes_eq, fun property value => ?_⟩
  rw [computedStyle, ResolvedStyles.get?_computed]
  exact findSome?_eq_some_iff describes.chain

/-- A page with one sheet before its tags and one behind them, and a tag that has a class, an id and
a `style` attribute. -/
def layeredPage : String :=
  "<style>p \x7b color: red; background-color: black; font-size: 8px \x7d " ++
    ".a \x7b color: green; font-size: 9px \x7d #x \x7b color: blue \x7d</style>" ++
    "<div style='font-weight: bold; color: gray; --k: u'>" ++
    "<p class=' a b' id=' x ' style='--k: v'>1<b>2</b></p></div>" ++
    "<style>b \x7b color: red \x7d</style>"

/-- The paragraph has a value from each of its layers and one from the tag around it.  The tag in it
has all of them from there, since the sheet with its rule comes later. -/
theorem computedStyle_lineages_layeredPage :
    let page := parse {} layeredPage
    let tags := page.document.elements.filter (·.kind.isTag)
    (tags.map fun tag =>
        let style := page.computedStyle tag
        (style.color, style.background, style.size, style.weight, style.other? "--k")) =
      [(some "gray", none, none, some .bold, some "u"),
        (some "blue", some "black", some 9, some .bold, some "v"),
        (some "blue", some "black", some 9, some .bold, some "v")] ∧
    ∃ outer paragraph inner,
      Surroundings.lineages {} (Segment.ofMarkup layeredPage) = [outer, paragraph, inner] ∧
        paragraph.Gives .color "blue" ∧ paragraph.Gives .background "black" ∧
        paragraph.Gives .size (9 : Nat) ∧ paragraph.Gives .weight Style.FontWeight.bold ∧
        paragraph.Gives (.other "--k") "v" ∧ inner.Gives .color "blue" ∧
        ∀ size, ¬ outer.Gives .size size := by
  intro page tags
  have values : (tags.map fun tag =>
        let style := page.computedStyle tag
        (style.color, style.background, style.size, style.weight, style.other? "--k")) =
      [(some "gray", none, none, some .bold, some "u"),
        (some "blue", some "black", some 9, some .bold, some "v"),
        (some "blue", some "black", some 9, some .bold, some "v")] := by
    decide +kernel
  refine ⟨values, ?_⟩
  have told : List.Forall₂ _ tags _ := computedStyle_lineages {} layeredPage
  obtain ⟨first, second, third, listed⟩ : ∃ first second third, tags = [first, second, third] :=
    List.length_eq_three.1 ((List.length_map _).symm.trans (congrArg List.length values))
  rw [listed] at values told
  simp only [List.map_cons, List.map_nil, List.cons.injEq, Prod.mk.injEq, and_true] at values
  obtain ⟨⟨-, -, unsized, -⟩, ⟨color, background, size, weight, other⟩, innerColor, -⟩ := values
  obtain ⟨outer, behind, ⟨-, -, outerGives⟩, inside, lineages⟩ :=
    List.forall₂_cons_left_iff.1 told
  obtain ⟨paragraph, innermost, ⟨-, -, gives⟩, last, rfl⟩ := List.forall₂_cons_left_iff.1 inside
  obtain ⟨inner, none, ⟨-, -, innerGives⟩, ends, rfl⟩ := List.forall₂_cons_left_iff.1 last
  obtain rfl := List.forall₂_nil_left_iff.1 ends
  refine ⟨outer, paragraph, inner, lineages, (gives .color _).1 color,
    (gives .background _).1 background, (gives .size _).1 size, (gives .weight _).1 weight,
    (gives (.other "--k") _).1 other, (innerGives .color _).1 innerColor, fun size given => ?_⟩
  have sized := (outerGives .size size).2 given
  cases unsized.symm.trans sized

end Page
end Pagelet
