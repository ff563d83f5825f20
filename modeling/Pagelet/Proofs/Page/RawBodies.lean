import Pagelet.Proofs.Markup.Segments
import Pagelet.Proofs.Page.Preorder

/-!
# What becomes of raw bodies

The body of a sheet or a script is gathered between its two tags and handed on when the end
tag comes.  The scanner and the assembly decide each on its own where a body begins and ends;
below they are shown to agree, so that what is handed on is the bodies as they stand in the
source, and nothing else comes of them.
-/

namespace Pagelet
namespace Page

open Markup (Attributes Segment Token)
open Style (StyleRef)

section Trails

variable {σ α : Type _} {step : σ → α → σ}

/-- The states of a run, each with the member of the list that it takes next. -/
def trail (step : σ → α → σ) : σ → List α → List (σ × α)
  | _, [] => []
  | state, a :: rest => (state, a) :: trail step (step state a) rest

/-- A run over two lists goes through the states of the first, and then through those of the
second. -/
theorem trail_append (state : σ) (first second : List α) :
    trail step state (first ++ second) =
      trail step state first ++ trail step (first.foldl step state) second := by
  induction first generalizing state with
  | nil => rfl
  | cons a rest ih => simp [trail, ih]

/-- A run in stretches is made up of the runs over the stretches. -/
theorem trail_flatMap {β : Type _} (stretch : β → List α) (state : σ) (list : List β) :
    trail step state (list.flatMap stretch) =
      (trail (fun state b => (stretch b).foldl step state) state list).flatMap
        fun (state, b) => trail step state (stretch b) := by
  induction list generalizing state with
  | nil => rfl
  | cons b rest ih => rw [List.flatMap_cons, trail_append, trail, List.flatMap_cons, ih]

end Trails

/-- A text that is complete: a sheet for the rule table, or a script to run in a chain. -/
inductive Use
  /-- A style sheet. -/
  | sheet (text : String)
  /-- A script, with the style references of what it writes. -/
  | script (source : String) (chain : List StyleRef)
deriving DecidableEq, Repr

/-- The assembly after it has handed on a text. -/
def Use.perform (settings : Settings) (assembly : Assembly) : Use → Assembly
  | sheet text => { assembly with rules := (assembly.rules.addSheet text).1 }
  | script source chain =>
      if settings.executeScripts then
        let state := Script.run ⟨settings.limits, chain⟩ source assembly.environment
          assembly.document
        { assembly with
          document := state.document
          environment := state.environment
          report := assembly.report.append state.report }
      else assembly

namespace Assembly

variable {settings : Settings} {assembly : Assembly} {name : String} {attributes : Attributes}

/-- The text that the assembly hands on when it takes the token. -/
def use? (assembly : Assembly) : Token → Option Use
  | .finish name =>
      match assembly.mode with
      | .sheet gathered => if name = "style" then some (.sheet gathered) else none
      | .script gathered =>
          if name = "script" then some (.script gathered assembly.chain) else none
      | _ => none
  | _ => none

/-- The rules, the environment of the scripts and their report are the same. -/
structure SameUses (before after : Assembly) : Prop where
  /-- No rules were added. -/
  rules_eq : after.rules = before.rules
  /-- No script left anything behind. -/
  environment_eq : after.environment = before.environment
  /-- No script was reported on. -/
  report_eq : after.report = before.report

/-- A start tag hands nothing on. -/
theorem sameUses_startTag (assembly : Assembly) (name : String) (attributes : Attributes)
    (selfClosing : Bool) : assembly.SameUses (assembly.startTag name attributes selfClosing) := by
  unfold startTag
  repeat' split
  all_goals exact ⟨rfl, rfl, rfl⟩

/-- Closing an element hands nothing on. -/
theorem sameUses_closeElement (assembly : Assembly) (name : String) :
    assembly.SameUses (assembly.closeElement name) := by
  unfold closeElement
  repeat' split
  all_goals exact ⟨rfl, rfl, rfl⟩

/-- Text hands nothing on. -/
theorem sameUses_addText (assembly : Assembly) (text : String) :
    assembly.SameUses (assembly.addText text) := by
  obtain ⟨document, openTags, same, -⟩ := addText_frame assembly text
  rw [same]
  exact ⟨rfl, rfl, rfl⟩

/-- What a token hands on is all that it does to the rules and to the scripts. -/
theorem take_eq_perform {token : Token} {use : Use} (handed : assembly.use? token = some use) :
    take settings assembly token = use.perform settings { assembly with mode := .markup } := by
  cases token with
  | start | text => cases handed
  | finish name =>
      simp only [use?] at handed
      simp only [take, endTag]
      split at handed
      · next gathered sheet =>
        obtain ⟨closes, same⟩ := Option.ite_none_right_eq_some.1 handed
        obtain rfl := Option.some.inj same
        simp only [sheet, if_pos closes]
        rfl
      · next gathered script =>
        obtain ⟨closes, same⟩ := Option.ite_none_right_eq_some.1 handed
        obtain rfl := Option.some.inj same
        simp only [script, if_pos closes]
        rfl
      · cases handed

/-- A token that hands nothing on changes neither the rules nor what scripts left behind. -/
theorem sameUses_take {token : Token} (handed : assembly.use? token = none) :
    assembly.SameUses (take settings assembly token) := by
  have same : assembly.SameUses assembly := ⟨rfl, rfl, rfl⟩
  cases token with
  | start name attributes selfClosing =>
      simp only [take]
      split
      · exact sameUses_startTag assembly name attributes selfClosing
      · exact same
  | text content =>
      simp only [take, takeText]
      split
      · exact sameUses_addText assembly content
      · exact ⟨rfl, rfl, rfl⟩
      · exact ⟨rfl, rfl, rfl⟩
      · exact same
  | finish name =>
      simp only [use?] at handed
      simp only [take, endTag]
      split
      · exact sameUses_closeElement assembly name
      · next gathered sheet =>
        simp only [sheet, ite_eq_right_iff, reduceCtorEq, imp_false] at handed
        rwa [if_neg handed]
      · next gathered script =>
        simp only [script, ite_eq_right_iff, reduceCtorEq, imp_false] at handed
        rwa [if_neg handed]
      · split <;> exact ⟨rfl, rfl, rfl⟩

end Assembly

/-- What text is for when more of it has been read. -/
def Mode.gather : Mode → String → Mode
  | .sheet gathered, text => .sheet (gathered ++ text)
  | .script gathered, text => .script (gathered ++ text)
  | mode, _ => mode

/-- What text is for behind the start tag of a raw element. -/
def rawMode (name : String) (attributes : Attributes) : Mode :=
  if name = "style" then .sheet "" else Assembly.scriptMode attributes

/-- What is handed on of a raw element in this chain: the body of a sheet, and that of a script
whose source lies in the page, if they have an end tag. -/
def segmentUse? (chain : List StyleRef) : Segment → Option Use
  | .raw _ name attributes body (some _) =>
      if name = "style" then some (.sheet (String.ofList body))
      else if attributes.any (·.1 == "src") then none
      else some (.script (String.ofList body) chain)
  | _ => none

namespace Assembly

variable {settings : Settings} {assembly : Assembly} {name : String} {attributes : Attributes}

/-- Takes the tokens of one segment. -/
def takeSegment (settings : Settings) (assembly : Assembly) (segment : Segment) : Assembly :=
  segment.tokens.foldl (take settings) assembly

/-- The start tag of a raw element switches the mode, and does nothing else. -/
theorem take_start_raw (running : assembly.mode = .markup) (isRaw : name ∈ Markup.rawNames)
    (attributes : Attributes) :
    take settings assembly (.start name attributes false) =
      { assembly with mode := rawMode name attributes } := by
  obtain rfl | rfl : name = "script" ∨ name = "style" := by simpa [Markup.rawNames] using isRaw
  all_goals simp [take, running, startTag, rawMode]

theorem rawMode_ne_markup (name : String) (attributes : Attributes) :
    rawMode name attributes ≠ .markup := by
  unfold rawMode scriptMode
  repeat' split
  all_goals simp

/-- The body of a raw element is gathered and does nothing else. -/
theorem trail_rawText (gathering : assembly.mode ≠ .markup) (body : List Char) :
    (∀ moment ∈ trail (take settings) assembly (Token.rawText body),
        moment.1.use? moment.2 = none ∧ ∃ content, moment.2 = .text content) ∧
      (Token.rawText body).foldl (take settings) assembly =
        { assembly with mode := assembly.mode.gather (String.ofList body) } := by
  cases body with
  | nil =>
      refine ⟨List.forall_mem_nil _, ?_⟩
      obtain ⟨document, rules, styles, environment, report, openTags, mode⟩ := assembly
      cases mode <;> simp [Token.rawText, Mode.gather]
  | cons c rest =>
      refine ⟨List.forall_mem_singleton.2 ⟨rfl, _, rfl⟩, ?_⟩
      obtain ⟨document, rules, styles, environment, report, openTags, mode⟩ := assembly
      cases mode with
      | markup => exact absurd rfl gathering
      | sheet | script | external => rfl

/-- The end tag of a raw element hands on what has been gathered since its start tag. -/
theorem use?_finish (isRaw : name ∈ Markup.rawNames) (attributes : Attributes)
    (opening closing body : List Char) :
    use? { assembly with mode := (rawMode name attributes).gather (String.ofList body) }
        (.finish name) =
      segmentUse? assembly.chain (.raw opening name attributes body (some closing)) := by
  obtain rfl | rfl : name = "script" ∨ name = "style" := by simpa [Markup.rawNames] using isRaw
  · cases external : attributes.any (·.1 == "src") <;>
      simp [use?, rawMode, scriptMode, segmentUse?, Mode.gather, external, chain]
  · simp [use?, rawMode, segmentUse?, Mode.gather]

/-- The end tag of a raw element that hands on nothing ends it all the same. -/
theorem take_finish_of_unused (isRaw : name ∈ Markup.rawNames) (text : String)
    (unused : use? { assembly with mode := (rawMode name attributes).gather text }
      (.finish name) = none) :
    take settings { assembly with mode := (rawMode name attributes).gather text } (.finish name) =
      { assembly with mode := .markup } := by
  obtain rfl | rfl : name = "script" ∨ name = "style" := by simpa [Markup.rawNames] using isRaw
  · cases external : attributes.any (·.1 == "src") with
    | true => simp [take, endTag, rawMode, scriptMode, Mode.gather, external]
    | false => simp [use?, rawMode, scriptMode, Mode.gather, external] at unused
  · simp [use?, rawMode, Mode.gather] at unused

/-- What a text does on being handed on does not depend on the mode. -/
theorem perform_setMode (settings : Settings) (assembly : Assembly) (use : Use) (mode : Mode) :
    use.perform settings { assembly with mode } = { use.perform settings assembly with mode } := by
  cases use with
  | sheet text => rfl
  | script source chain =>
      simp only [Use.perform]
      split <;> rfl

/-- The assembly before the end tag of a raw element. -/
theorem foldl_take_raw (settings : Settings) (running : assembly.mode = .markup)
    (isRaw : name ∈ Markup.rawNames) (attributes : Attributes) (body : List Char) :
    (Token.start name attributes false :: Token.rawText body).foldl (take settings) assembly =
      { assembly with mode := (rawMode name attributes).gather (String.ofList body) } := by
  rw [List.foldl_cons, take_start_raw running isRaw]
  exact (trail_rawText (rawMode_ne_markup name attributes) body).2

/-- Takes a segment as a whole, and never knows of an inside: a raw element hands on its body,
if at all, and everything else is taken in running markup. -/
def absorb (settings : Settings) (assembly : Assembly) : Segment → Assembly
  | .skipped _ => assembly
  | .text source => assembly.addText (String.ofList (Markup.Reference.decode source))
  | .finish _ name => assembly.closeElement name
  | .start _ name attributes selfClosing => assembly.startTag name attributes selfClosing
  | .raw opening name attributes body closing =>
      (segmentUse? assembly.chain (.raw opening name attributes body closing)).elim assembly
        (Use.perform settings assembly)

/-- A raw element hands on its body, if at all, and does nothing else but leave the assembly
inside if it has no end tag. -/
theorem takeSegment_raw (settings : Settings) (running : assembly.mode = .markup)
    (isRaw : name ∈ Markup.rawNames) (attributes : Attributes) (opening body : List Char)
    (closing : Option (List Char)) :
    let segment := Segment.raw opening name attributes body closing
    ∃ mode, (¬ segment.IsOpen → mode = .markup) ∧
      takeSegment settings assembly segment = { absorb settings assembly segment with mode } := by
  intro segment
  have gathered := foldl_take_raw settings running isRaw attributes body
  cases closing with
  | none =>
      refine ⟨(rawMode name attributes).gather (String.ofList body),
        fun closed => absurd trivial closed, ?_⟩
      simp only [takeSegment, segment, Segment.tokens, Option.map_none, Option.toList_none,
        List.append_nil, gathered]
      rfl
  | some tag =>
      let inside := { assembly with
        mode := (rawMode name attributes).gather (String.ofList body) }
      have taken : takeSegment settings assembly segment = take settings inside (.finish name) := by
        simp only [takeSegment, segment, Segment.tokens, Option.map_some, Option.toList_some,
          List.foldl_append, gathered, List.foldl_cons, List.foldl_nil, inside]
      have handed : use? inside (.finish name) = segmentUse? assembly.chain segment :=
        use?_finish isRaw attributes opening tag body
      refine ⟨.markup, fun _ => rfl, ?_⟩
      rw [taken, absorb]
      cases use : segmentUse? assembly.chain segment with
      | some found =>
          rw [take_eq_perform (handed.trans use)]
          exact perform_setMode settings assembly found .markup
      | none => exact take_finish_of_unused isRaw _ (handed.trans use)

/-! ## Segments taken one after the other -/

theorem mode_closeElement (assembly : Assembly) (name : String) :
    (assembly.closeElement name).mode = assembly.mode := by
  unfold closeElement
  repeat' split
  all_goals rfl

theorem mode_startTag {selfClosing : Bool} (ordinary : name ∈ Markup.rawNames → selfClosing = true)
    (attributes : Attributes) :
    (assembly.startTag name attributes selfClosing).mode = assembly.mode := by
  unfold startTag
  split
  · next sheet => rw [if_pos (ordinary (by simp [Markup.rawNames, sheet]))]
  · split
    · next script => rw [if_pos (ordinary (by simp [Markup.rawNames, script]))]
    · split <;> rfl

theorem mode_perform (settings : Settings) (assembly : Assembly) (use : Use) :
    (use.perform settings assembly).mode = assembly.mode := by
  cases use with
  | sheet text => rfl
  | script source chain =>
      rw [Use.perform]
      split <;> rfl

/-- A segment leaves the mode as it was. -/
theorem mode_absorb (settings : Settings) {segment : Segment} (proper : segment.Proper) :
    (absorb settings assembly segment).mode = assembly.mode := by
  cases segment with
  | skipped source => rfl
  | text source => exact mode_addText _ _
  | finish source name => exact mode_closeElement assembly name
  | start source name attributes selfClosing => exact mode_startTag proper attributes
  | raw opening name attributes body closing =>
      rw [absorb]
      cases segmentUse? assembly.chain (.raw opening name attributes body closing) with
      | none => rfl
      | some use => exact mode_perform settings assembly use

/-- Behind every segment but a raw element without an end tag, the tokens and the whole segment
lead to the same assembly. -/
theorem takeSegment_eq_absorb (running : assembly.mode = .markup) {segment : Segment}
    (proper : segment.Proper) (closed : ¬ segment.IsOpen) :
    takeSegment settings assembly segment = absorb settings assembly segment := by
  cases segment with
  | skipped source => rfl
  | text | finish | start =>
      simp [takeSegment, Segment.tokens, absorb, take, takeText, endTag, running]
  | raw opening name attributes body closing =>
      obtain ⟨mode, ends, taken⟩ :=
        takeSegment_raw settings running proper.1 attributes opening body closing
      rw [taken, ends closed, ← running, ← mode_absorb settings proper]

/-- The tokens of a page and its segments lead to the same assembly, but for the raw element
that may be left without an end tag. -/
theorem foldl_takeSegment (running : assembly.mode = .markup) {segments : List Segment}
    (linked : Segment.Linked segments) :
    ∃ mode, segments.foldl (takeSegment settings) assembly =
      { segments.foldl (absorb settings) assembly with mode } := by
  induction linked generalizing assembly with
  | nil => exact ⟨assembly.mode, rfl⟩
  | @cons segment rest proper last linked ih =>
      by_cases isOpen : segment.IsOpen
      · -- the last segment, behind which the mode no longer matters
        cases segment with
        | skipped | text | finish | start => cases isOpen
        | raw opening name attributes body closing =>
            obtain ⟨mode, -, taken⟩ :=
              takeSegment_raw settings running proper.1 attributes opening body closing
            rw [last isOpen]
            exact ⟨mode, taken⟩
      · rw [List.foldl_cons, List.foldl_cons, takeSegment_eq_absorb running proper isOpen]
        exact ih ((mode_absorb settings proper).trans running)

/-- The two runs meet the same assembly before every segment. -/
theorem trail_takeSegment (running : assembly.mode = .markup) {segments : List Segment}
    (linked : Segment.Linked segments) :
    trail (takeSegment settings) assembly segments = trail (absorb settings) assembly segments := by
  induction linked generalizing assembly with
  | nil => rfl
  | @cons segment rest proper last linked ih =>
      rw [trail, trail]
      by_cases isOpen : segment.IsOpen
      · rw [last isOpen]
        rfl
      · rw [takeSegment_eq_absorb running proper isOpen,
          ih ((mode_absorb settings proper).trans running)]

/-- Every segment of a page is taken in running markup. -/
theorem running_of_mem_trail (settings : Settings) (running : assembly.mode = .markup)
    {segments : List Segment} (linked : Segment.Linked segments) :
    ∀ moment ∈ trail (absorb settings) assembly segments,
      moment.1.mode = .markup ∧ moment.2.Proper := by
  induction linked generalizing assembly with
  | nil => exact List.forall_mem_nil _
  | cons proper last linked ih =>
      exact List.forall_mem_cons.2
        ⟨⟨running, proper⟩, ih ((mode_absorb settings proper).trans running)⟩

/-- What one segment hands on. -/
theorem filterMap_use?_trail (running : assembly.mode = .markup) {segment : Segment}
    (proper : segment.Proper) :
    (trail (take settings) assembly segment.tokens).filterMap
        (fun (state, token) => state.use? token) =
      (segmentUse? assembly.chain segment).toList := by
  cases segment with
  | skipped | text | start => rfl
  | finish source name => simp [Segment.tokens, trail, use?, running, segmentUse?]
  | raw opening name attributes body closing =>
      let opened := { assembly with mode := rawMode name attributes }
      have body_unused : (trail (take settings) opened (Token.rawText body)).filterMap
          (fun (state, token) => state.use? token) = [] :=
        List.filterMap_eq_nil_iff.2 fun moment member =>
          ((trail_rawText (rawMode_ne_markup name attributes) body).1 moment member).1
      have gathered := foldl_take_raw settings running proper.1 attributes body
      rw [Segment.tokens, trail_append, gathered, trail, take_start_raw running proper.1,
        List.filterMap_append, List.filterMap_cons_none rfl, body_unused, List.nil_append]
      cases closing with
      | none => rfl
      | some tag =>
          have handed : use? { assembly with
                mode := (rawMode name attributes).gather (String.ofList body) } (.finish name) =
              segmentUse? assembly.chain (.raw opening name attributes body (some tag)) :=
            use?_finish proper.1 attributes opening tag body
          rw [Option.map_some, Option.toList_some, trail, trail, List.filterMap_cons,
            List.filterMap_nil]
          simp only [handed]
          cases segmentUse? assembly.chain (.raw opening name attributes body (some tag)) <;> rfl

/-- A start tag is taken in running markup. -/
theorem running_of_start_mem_trail (running : assembly.mode = .markup) {segment : Segment}
    (proper : segment.Proper) {state : Assembly} {selfClosing : Bool}
    (member : (state, Token.start name attributes selfClosing) ∈
      trail (take settings) assembly segment.tokens) :
    state.mode = .markup := by
  cases segment with
  | skipped source => cases member
  | text source | finish source | start source =>
      obtain ⟨rfl, -⟩ := Prod.mk.inj (List.mem_singleton.1 member)
      exact running
  | raw opening rawName given body closing =>
      rw [Segment.tokens, trail_append, trail, take_start_raw running proper.1,
        List.mem_append, List.mem_cons] at member
      obtain (first | inside) | last := member
      · exact (Prod.mk.inj first).1 ▸ running
      · obtain ⟨-, content, same⟩ :=
          (trail_rawText (rawMode_ne_markup rawName given) body).1 _ inside
        cases same
      · cases closing with
        | none => cases last
        | some tag => cases (Prod.mk.inj (List.mem_singleton.1 last)).2

/-- The page that an assembly leaves behind. -/
def page (limits : Script.Limits) (assembly : Assembly) : Page where
  document := assembly.document
  rules := assembly.rules
  styles := assembly.styles
  environment := assembly.environment
  limits := limits
  report := assembly.report

end Assembly

/-- A page is made of its segments, each taken as a whole. -/
theorem parse_eq_absorb (settings : Settings) (markup : String) :
    parse settings markup =
      ((Segment.ofMarkup markup).foldl (Assembly.absorb settings) {}).page settings.limits := by
  obtain ⟨mode, folded⟩ : ∃ mode,
      (Segment.ofMarkup markup).foldl (Assembly.takeSegment settings) {} =
        { (Segment.ofMarkup markup).foldl (Assembly.absorb settings) {} with mode } :=
    Assembly.foldl_takeSegment rfl (Segment.linked_ofMarkup markup)
  have assembled : Assembly.ofTokens settings (Token.ofMarkup markup) =
      (Segment.ofMarkup markup).foldl (Assembly.takeSegment settings) {} := by
    rw [Assembly.ofTokens, ← Segment.flatMap_tokens, List.foldl_flatMap]
    rfl
  rw [parse, assembled, folded]
  rfl

/-- The moments of a page's tokens are those of its segments, each in turn. -/
theorem trail_ofMarkup (settings : Settings) (markup : String) :
    trail (Assembly.take settings) {} (Token.ofMarkup markup) =
      (trail (Assembly.absorb settings) {} (Segment.ofMarkup markup)).flatMap
        fun (state, segment) => trail (Assembly.take settings) state segment.tokens := by
  rw [← Segment.flatMap_tokens, trail_flatMap,
    ← Assembly.trail_takeSegment rfl (Segment.linked_ofMarkup markup)]
  rfl

end Page
end Pagelet
