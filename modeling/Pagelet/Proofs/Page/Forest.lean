import Pagelet.Page
import Pagelet.Proofs.Document.Adding
import Pagelet.Proofs.Markup.RoundTrip

/-!
# Nested markup

Markup without style sheets and scripts, every container closed where it should be, is a
forest.  Its tokens are well formed, and its preorder listing says what elements a page
with this markup has.
-/

namespace Pagelet
namespace Page

open Document (Draft Element ElementKind)
open Markup (Attributes IsTagName Token)
open Style (StyleRef)

/-- Nested markup: none, or a first piece and the markup behind it. -/
inductive Forest
  /-- No markup. -/
  | nil
  /-- `<name attributes>children</name>` -/
  | container (name : String) (attributes : Attributes) (children rest : Forest)
  /-- The start tag of an element that never takes an end tag. -/
  | void (name : String) (attributes : Attributes) (selfClosing : Bool) (rest : Forest)
  /-- `<br attributes>` -/
  | lineBreak (attributes : Attributes) (selfClosing : Bool) (rest : Forest)
  /-- A run of text. -/
  | text (content : String) (rest : Forest)
deriving DecidableEq, Repr

namespace Forest

/-- The tokens of the markup. -/
def tokens : Forest → List Token
  | nil => []
  | container name attributes children rest =>
      .start name attributes false :: (children.tokens ++ .finish name :: rest.tokens)
  | void name attributes selfClosing rest => .start name attributes selfClosing :: rest.tokens
  | lineBreak attributes selfClosing rest => .start "br" attributes selfClosing :: rest.tokens
  | text content rest => .text content :: rest.tokens

/-- The markup as it is written. -/
def markup (forest : Forest) : String :=
  Token.render forest.tokens

/-- The first piece is a run of text. -/
def StartsWithText : Forest → Prop
  | text _ _ => True
  | _ => False

instance : DecidablePred StartsWithText
  | text .. => .isTrue trivial
  | nil => .isFalse id
  | container .. => .isFalse id
  | void .. => .isFalse id
  | lineBreak .. => .isFalse id

/-- The markup is written as it is meant: every tag has a name that may stand there, runs
of text are not empty, and two of them never meet. -/
def Written : Forest → Prop
  | nil => True
  | container name attributes children rest =>
      (IsTagName name ∧ name ∉ Markup.rawNames ∧ name ∉ Markup.voidNames) ∧
        attributes.Named ∧ children.Written ∧ rest.Written
  | void name attributes _ rest =>
      (IsTagName name ∧ name ∈ Markup.voidNames ∧ name ≠ "br") ∧
        attributes.Named ∧ rest.Written
  | lineBreak attributes _ rest => attributes.Named ∧ rest.Written
  | text content rest => content ≠ "" ∧ ¬ rest.StartsWithText ∧ rest.Written

instance decidableWritten : DecidablePred Written
  | nil => .isTrue trivial
  | container name attributes children rest =>
      have := decidableWritten children
      have := decidableWritten rest
      inferInstanceAs (Decidable ((IsTagName name ∧ name ∉ Markup.rawNames ∧
        name ∉ Markup.voidNames) ∧ attributes.Named ∧ children.Written ∧ rest.Written))
  | void name attributes _ rest =>
      have := decidableWritten rest
      inferInstanceAs (Decidable ((IsTagName name ∧ name ∈ Markup.voidNames ∧ name ≠ "br") ∧
        attributes.Named ∧ rest.Written))
  | lineBreak attributes _ rest =>
      have := decidableWritten rest
      inferInstanceAs (Decidable (attributes.Named ∧ rest.Written))
  | text content rest =>
      have := decidableWritten rest
      inferInstanceAs (Decidable (content ≠ "" ∧ ¬ rest.StartsWithText ∧ rest.Written))

/-- The start tags other than line breaks, in order. -/
def tags : Forest → List (String × Attributes)
  | nil => []
  | container name attributes children rest =>
      (name, attributes) :: (children.tags ++ rest.tags)
  | void name attributes _ rest => (name, attributes) :: rest.tags
  | lineBreak _ _ rest => rest.tags
  | text _ rest => rest.tags

/-- The runs of text that stand in no container. -/
def texts : Forest → List String
  | nil => []
  | container _ _ _ rest => rest.texts
  | void _ _ _ rest => rest.texts
  | lineBreak _ _ rest => rest.texts
  | text content rest => content :: rest.texts

/-- What runs of text add to content before them.  Blanks at their ends are left out, with
one space for those that stand between two runs; `apart` says whether blanks came
before. -/
def joinBehind (apart : Bool) : List String → String
  | [] => ""
  | run :: rest =>
      if (Text.trim run.toList).isEmpty then joinBehind true rest
      else
        (if apart || Text.startsBlank run.toList then " " else "") ++
          String.ofList (Text.trim run.toList) ++
          joinBehind (Text.endsBlank run.toList) rest

/-- The content that runs of text make up, if they are not all blank. -/
def content? : List String → Option String
  | [] => none
  | run :: rest =>
      if (Text.trim run.toList).isEmpty then content? rest
      else
        some (String.ofList (Text.trim run.toList) ++
          joinBehind (Text.endsBlank run.toList) rest)

section

variable {run : String} {rest : List String}

/-- A run of blanks only parts the runs around it. -/
theorem joinBehind_of_blank (blank : (Text.trim run.toList).isEmpty = true) (apart : Bool) :
    joinBehind apart (run :: rest) = joinBehind true rest :=
  if_pos blank

/-- A visible run is trimmed, with a space in front of it where blanks part it from the run
before. -/
theorem joinBehind_of_visible (visible : (Text.trim run.toList).isEmpty = false) (apart : Bool) :
    joinBehind apart (run :: rest) =
      (if apart || Text.startsBlank run.toList then " " else "") ++
        String.ofList (Text.trim run.toList) ++
        joinBehind (Text.endsBlank run.toList) rest :=
  if_neg (Bool.not_eq_true _ ▸ visible)

theorem content?_of_blank (blank : (Text.trim run.toList).isEmpty = true) :
    content? (run :: rest) = content? rest :=
  if_pos blank

/-- The content begins with the first visible run, trimmed. -/
theorem content?_of_visible (visible : (Text.trim run.toList).isEmpty = false) :
    content? (run :: rest) =
      some (String.ofList (Text.trim run.toList) ++
        joinBehind (Text.endsBlank run.toList) rest) :=
  if_neg (Bool.not_eq_true _ ▸ visible)

end

/-- The element of a start tag that stands in these containers and owns the style of this
number. -/
def tagDraft (name : String) (attributes : Attributes) (content : Option String)
    (chain : List StyleRef) (number : Nat) : Draft where
  kind := .tag name
  content
  attributes
  chain := chain ++ [⟨number⟩]
  explicitId := Assembly.explicitId? attributes

/-- What the end tag of a container that stands in these containers adds. -/
def endDrafts (name : String) (chain : List StyleRef) : List Draft :=
  if blockNames.contains name then [{ kind := .blockEnd name, chain }] else []

/-- The elements in preorder, for markup that stands in these containers and behind so many
start tags.  An end mark comes behind the children of its container; line breaks and end
marks keep no attributes, so they have no id of their own. -/
def outline (chain : List StyleRef) (number : Nat) : Forest → List Draft
  | nil => []
  | container name attributes children rest =>
      tagDraft name attributes (content? children.texts) chain number ::
        children.outline (chain ++ [⟨number⟩]) (number + 1) ++
        endDrafts name chain ++
        rest.outline chain (number + 1 + children.tags.length)
  | void name attributes _ rest =>
      tagDraft name attributes none chain number :: rest.outline chain (number + 1)
  | lineBreak _ _ rest => { kind := .lineBreak, chain } :: rest.outline chain number
  | text _ rest => rest.outline chain number

/-- The elements of a page with this markup. -/
def listing (forest : Forest) : List Element :=
  Document.numbered 1 (forest.outline [] 0)

theorem not_mem_rawNames_of_mem_voidNames :
    ∀ name ∈ Markup.voidNames, name ∉ Markup.rawNames := by
  decide

theorem opensRaw_start {name : String} (attributes : Attributes) (selfClosing : Bool)
    (notRaw : name ∉ Markup.rawNames) :
    (Token.start name attributes selfClosing).opensRaw = false := by
  simp [Token.opensRaw, notRaw]

/-- A forest that does not begin with text, in front of tokens that do not either. -/
theorem head?_tokens_append {forest : Forest} {behind : List Token}
    (noText : ¬ forest.StartsWithText) (apart : ∀ token ∈ behind.head?, ¬ token.IsText) :
    ∀ token ∈ (forest.tokens ++ behind).head?, ¬ token.IsText := by
  cases forest with
  | nil => exact apart
  | text content rest => exact absurd trivial noText
  | _ => simp [tokens, Token.IsText]

/-- The tokens of written markup may stand before well-formed tokens that do not begin with
text. -/
theorem writable_tokens_append {forest : Forest} (written : forest.Written)
    {behind : List Token} (writable : Token.Writable behind)
    (apart : ∀ token ∈ behind.head?, ¬ token.IsText) :
    Token.Writable (forest.tokens ++ behind) := by
  induction forest generalizing behind with
  | nil => exact writable
  | container name attributes children rest inside others =>
      obtain ⟨⟨isTagName, notRaw, -⟩, named, childrenWritten, restWritten⟩ := written
      have closed : Token.Writable (.finish name :: (rest.tokens ++ behind)) :=
        .cons (.finish isTagName.toIsName) rfl nofun (others restWritten writable apart)
      have opened := inside childrenWritten closed (by simp [Token.IsText])
      simpa [tokens] using
        Token.Writable.cons (.start isTagName named false) (opensRaw_start _ _ notRaw) nofun opened
  | void name attributes selfClosing rest others =>
      obtain ⟨⟨isTagName, isVoid, -⟩, named, restWritten⟩ := written
      have notRaw := not_mem_rawNames_of_mem_voidNames name isVoid
      exact .cons (.start isTagName named selfClosing) (opensRaw_start _ _ notRaw) nofun
        (others restWritten writable apart)
  | lineBreak attributes selfClosing rest others =>
      obtain ⟨named, restWritten⟩ := written
      exact .cons (.start (by decide) named selfClosing) (opensRaw_start _ _ (by decide)) nofun
        (others restWritten writable apart)
  | text content rest others =>
      obtain ⟨notEmpty, noText, restWritten⟩ := written
      exact .cons (.text notEmpty) rfl (fun _ => head?_tokens_append noText apart)
        (others restWritten writable apart)

/-- The runs of text in a written forest are not empty. -/
theorem ne_empty_of_mem_texts {forest : Forest} (written : forest.Written) :
    ∀ run ∈ forest.texts, run ≠ "" := by
  induction forest with
  | nil => exact List.forall_mem_nil _
  | container name attributes children rest _ others => exact others written.2.2.2
  | void name attributes selfClosing rest others => exact others written.2.2
  | lineBreak attributes selfClosing rest others => exact others written.2
  | text content rest others =>
      exact List.forall_mem_cons.2 ⟨written.1, others written.2.2⟩

/-- The tokens of a written forest can be written. -/
theorem writable_tokens {forest : Forest} (written : forest.Written) :
    Token.Writable forest.tokens := by
  simpa using writable_tokens_append written .nil (by simp)

/-- The markup of a written forest gives its tokens. -/
theorem ofMarkup_markup {forest : Forest} (written : forest.Written) :
    Token.ofMarkup forest.markup = forest.tokens := by
  rw [Token.ofMarkup, markup, Token.render, String.toList_ofList,
    Token.scan_writeAll (writable_tokens written)]

/-- A piece of markup has at least as many tokens as elements. -/
theorem length_outline_le (forest : Forest) (chain : List StyleRef) (number : Nat) :
    (forest.outline chain number).length ≤ forest.tokens.length := by
  induction forest generalizing chain number with
  | nil => exact Nat.le_refl 0
  | container name attributes children rest inside others =>
      have childrenFit := inside (chain ++ [⟨number⟩]) (number + 1)
      have restFit := others chain (number + 1 + children.tags.length)
      have endFits : (endDrafts name chain).length ≤ 1 := by
        unfold endDrafts
        split <;> simp
      simp only [outline, tokens, List.length_append, List.length_cons]
      omega
  | void name attributes selfClosing rest others =>
      exact Nat.succ_le_succ (others chain (number + 1))
  | lineBreak attributes selfClosing rest others =>
      exact Nat.succ_le_succ (others chain number)
  | text content rest others => exact Nat.le_succ_of_le (others chain number)

/-- The text of the markup has at least one byte for each element. -/
theorem length_outline_le_utf8ByteSize {forest : Forest} (written : forest.Written)
    (chain : List StyleRef) (number : Nat) :
    (forest.outline chain number).length ≤ forest.markup.utf8ByteSize :=
  (length_outline_le forest chain number).trans
    (Token.length_le_utf8ByteSize_render (writable_tokens written).wellFormed)

/-- The style that an element of this kind and chain owns: the innermost, if the element is
that of a start tag. -/
def ownStyle? (kind : ElementKind) (chain : List StyleRef) : Option StyleRef :=
  kind.tagName?.bind fun _ => chain.getLast?

/-- The elements of start tags own the styles in order. -/
theorem owners_outline (forest : Forest) (chain : List StyleRef) (number : Nat) :
    (forest.outline chain number).filterMap (fun draft => ownStyle? draft.kind draft.chain) =
      (List.range' number forest.tags.length).map StyleRef.mk := by
  have owned (name : String) (attributes : Attributes) (content : Option String)
      (chain : List StyleRef) (number : Nat) :
      ownStyle? (tagDraft name attributes content chain number).kind
        (tagDraft name attributes content chain number).chain = some ⟨number⟩ :=
    List.getLast?_concat
  induction forest generalizing chain number with
  | nil => rfl
  | container name attributes children rest inside others =>
      have unowned : (endDrafts name chain).filterMap
          (fun draft => ownStyle? draft.kind draft.chain) = [] := by
        unfold endDrafts
        split <;> rfl
      simp only [outline, tags, List.cons_append, List.filterMap_cons, owned,
        List.filterMap_append, inside, unowned, others, List.append_nil, List.length_cons,
        List.length_append, List.range'_succ, ← List.range'_append_1, List.map_cons,
        List.map_append]
  | void name attributes selfClosing rest others =>
      simp only [outline, tags, List.filterMap_cons, owned, others, List.length_cons,
        List.range'_succ, List.map_cons]
  | lineBreak attributes selfClosing rest others => exact others chain number
  | text content rest others => exact others chain number

/-- Numbering elements leaves the owners of styles as they are. -/
theorem owners_numbered (next : Nat) (drafts : List Draft) :
    (Document.numbered next drafts).filterMap
        (fun element => ownStyle? element.kind element.chain) =
      drafts.filterMap fun draft => ownStyle? draft.kind draft.chain := by
  induction drafts generalizing next with
  | nil => rfl
  | cons draft rest ih =>
      unfold Document.numbered
      split <;> rw [List.filterMap_cons, List.filterMap_cons, ih] <;> rfl

/-- The tags of a forest own the styles in order. -/
theorem owners_listing (forest : Forest) :
    forest.listing.filterMap (fun element => ownStyle? element.kind element.chain) =
      (List.range forest.tags.length).map StyleRef.mk := by
  rw [listing, owners_numbered, owners_outline, List.range_eq_range']

end Forest

end Page
end Pagelet
