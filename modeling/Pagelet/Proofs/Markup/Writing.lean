import Mathlib.Data.List.Chain
import Pagelet.Markup.Token.Raw
import Pagelet.Proofs.Markup.Escaping

/-!
# Written tokens

Every token has a text of one fixed form.  Text is written with its special characters
escaped, except in the body of a `script` or `style` element, which is written as it is;
attribute values stand between double quotes.  A list of tokens is well formed when
reading could produce it and its text says where each token ends.
-/

namespace Pagelet
namespace Markup

/-- A small letter, a digit, or one of the signs `_`, `:` and `-`. -/
def isSmallNameChar (c : Char) : Bool :=
  c.isLower || c.isDigit || c == '_' || c == ':' || c == '-'

/-- A name that may stand in an end tag or before the value of an attribute. -/
structure IsName (name : String) : Prop where
  /-- There is at least one character. -/
  notEmpty : name.toList ≠ []
  /-- Every character may stand in a name. -/
  small : ∀ c ∈ name.toList, isSmallNameChar c = true

/-- A name that may stand in a start tag. -/
structure IsTagName (name : String) : Prop extends IsName name where
  /-- The first character is a letter. -/
  starts : ∀ c ∈ name.toList.head?, c.isLower = true

instance (name : String) : Decidable (IsName name) :=
  decidable_of_iff (name.toList ≠ [] ∧ name.toList.all isSmallNameChar = true)
    ⟨fun ⟨notEmpty, small⟩ => ⟨notEmpty, List.all_eq_true.1 small⟩,
      fun isName => ⟨isName.1, List.all_eq_true.2 isName.2⟩⟩

instance (name : String) : Decidable (IsTagName name) :=
  decidable_of_iff (IsName name ∧ name.toList.head?.all Char.isLower = true)
    ⟨fun ⟨isName, starts⟩ => ⟨isName, (Option.all_eq_true _ _).1 starts⟩,
      fun isTagName => ⟨isTagName.1, (Option.all_eq_true _ _).2 isTagName.2⟩⟩

/-- Every attribute has a name; the values are any texts. -/
def Attributes.Named (attributes : Attributes) : Prop :=
  ∀ entry ∈ attributes, IsName entry.1

instance (attributes : Attributes) : Decidable attributes.Named :=
  inferInstanceAs (Decidable (∀ entry ∈ attributes, IsName entry.1))

namespace Token

/-- A blank and `name="value"`. -/
def attributeText (entry : String × String) : List Char :=
  ' ' :: entry.1.toList ++ '=' :: '"' ::
    Reference.EscapeTable.inQuotes.escape entry.2.toList ++ ['"']

/-- What ends a start tag. -/
def closingText (selfClosing : Bool) : List Char :=
  if selfClosing then ['/', '>'] else ['>']

/-- `<name attributes>`, with a slash before the end if the tag closes itself. -/
def startText (name : String) (attributes : Attributes) (selfClosing : Bool) : List Char :=
  '<' :: name.toList ++ attributes.flatMap attributeText ++ closingText selfClosing

/-- `</name>` -/
def finishText (name : String) : List Char :=
  '<' :: '/' :: name.toList ++ ['>']

/-- Whether the text behind the token is a raw body. -/
def opensRaw : Token → Bool
  | start name _ selfClosing => !selfClosing && rawNames.contains name
  | _ => false

/-- The text of a token; `raw` says whether the token stands in a raw body. -/
def write (raw : Bool) : Token → List Char
  | start name attributes selfClosing => startText name attributes selfClosing
  | finish name => finishText name
  | text content =>
      if raw then content.toList else Reference.EscapeTable.inText.escape content.toList

/-- The text of a list of tokens; `raw` says whether the first stands in a raw body. -/
def writeAll (raw : Bool) : List Token → List Char
  | [] => []
  | token :: rest => token.write raw ++ writeAll token.opensRaw rest

/-- The markup of a list of tokens. -/
def render (tokens : List Token) : String :=
  String.ofList (writeAll false tokens)

/-- The token is a run of text. -/
def IsText : Token → Prop
  | text _ => True
  | _ => False

instance : DecidablePred IsText
  | text _ => .isTrue trivial
  | start .. => .isFalse id
  | finish _ => .isFalse id

/-- The names in the token may stand where they do, and a run of text is not empty. -/
inductive WellFormed : Token → Prop
  | start {name : String} {attributes : Attributes} (isTagName : IsTagName name)
      (named : attributes.Named) (selfClosing : Bool) :
      WellFormed (start name attributes selfClosing)
  | finish {name : String} (isName : IsName name) : WellFormed (finish name)
  | text {content : String} (notEmpty : content ≠ "") : WellFormed (text content)

/-- A well-formed token is written with at least one character. -/
theorem WellFormed.write_ne_nil {token : Token} (wellFormed : token.WellFormed) (raw : Bool) :
    token.write raw ≠ [] := by
  cases wellFormed with
  | start | finish => exact List.cons_ne_nil _ _
  | @text content notEmpty =>
      have filled : content.toList ≠ [] := by simpa using notEmpty
      cases raw with
      | true => exact filled
      | false => exact Reference.EscapeTable.inText.escape_ne_nil filled

/-- There are no more well-formed tokens than characters that write them. -/
theorem length_le_length_writeAll {tokens : List Token}
    (wellFormed : ∀ token ∈ tokens, token.WellFormed) (raw : Bool) :
    tokens.length ≤ (writeAll raw tokens).length := by
  induction tokens generalizing raw with
  | nil => exact Nat.zero_le _
  | cons token rest ih =>
      obtain ⟨first, others⟩ := List.forall_mem_cons.1 wellFormed
      have behind := ih others token.opensRaw
      have filled := List.length_pos_iff.2 (first.write_ne_nil raw)
      simp only [writeAll, List.length_append, List.length_cons]
      omega

theorem length_le_utf8ByteSize_ofList (cs : List Char) :
    cs.length ≤ (String.ofList cs).utf8ByteSize := by
  induction cs with
  | nil => exact Nat.zero_le _
  | cons c cs ih =>
      have positive := c.utf8Size_pos
      rw [String.ofList_cons, String.utf8ByteSize_append, String.utf8ByteSize_singleton,
        List.length_cons]
      omega

/-- Markup has at least one byte for each token. -/
theorem length_le_utf8ByteSize_render {tokens : List Token}
    (wellFormed : ∀ token ∈ tokens, token.WellFormed) :
    tokens.length ≤ (render tokens).utf8ByteSize :=
  (length_le_length_writeAll wellFormed false).trans (length_le_utf8ByteSize_ofList _)

/-- The text begins with an end tag of the name, in any letter case and with any blanks
behind the name. -/
def StartsEndTag (name : String) (cs : List Char) : Prop :=
  ∃ spelling blanks behind, cs = '<' :: '/' :: spelling ++ blanks ++ '>' :: behind ∧
    spelling.map Char.toLower = name.toList.map Char.toLower ∧
      ∀ c ∈ blanks, Text.isAsciiBlank c = true

/-- Somewhere in the text stands an end tag of the name. -/
def HoldsEndTag (name : String) (cs : List Char) : Prop :=
  ∃ before behind, cs = before ++ behind ∧ StartsEndTag name behind

/-- The tokens begin with the rest of a raw element: a body, unless it is empty, and the
end tag.  The body holds no end tag of the name. -/
def ClosesRaw (name : String) (tokens : List Token) : Prop :=
  ∃ body rest, tokens = rawText body ++ finish name :: rest ∧ ¬ HoldsEndTag name body

/-- The list of tokens is one that markup can be read as. -/
structure Writable (tokens : List Token) : Prop where
  /-- Every token is well formed. -/
  wellFormed : ∀ token ∈ tokens, token.WellFormed
  /-- Two runs of text never meet. -/
  apart : tokens.IsChain fun first second => ¬ (first.IsText ∧ second.IsText)
  /-- Every raw element is closed. -/
  closed : ∀ before name attributes behind,
    tokens = before ++ start name attributes false :: behind → name ∈ rawNames →
      ClosesRaw name behind

namespace Writable

variable {tokens : List Token}

theorem nil : Writable [] where
  wellFormed := List.forall_mem_nil _
  apart := .nil
  closed before name attributes behind split := by simp at split

/-- The start tag of a raw element may stand before its body and end tag. -/
theorem consRaw {name : String} {attributes : Attributes} (isTagName : IsTagName name)
    (named : attributes.Named) (closes : ClosesRaw name tokens) (writable : Writable tokens) :
    Writable (start name attributes false :: tokens) where
  wellFormed := List.forall_mem_cons.2 ⟨.start isTagName named false, writable.wellFormed⟩
  apart := List.isChain_cons.2 ⟨fun _ _ meet => meet.1, writable.apart⟩
  closed before other entries behind split raw := by
    cases before with
    | nil =>
        injection split with same behind_eq
        injection same with name_eq
        exact name_eq ▸ behind_eq ▸ closes
    | cons first before =>
        exact writable.closed before other entries behind (List.cons.inj split).2 raw

/-- Any other token may stand before a well-formed list if it does not bring two runs of
text together. -/
theorem cons {token : Token} (wellFormed : token.WellFormed) (ordinary : token.opensRaw = false)
    (apart : token.IsText → ∀ next ∈ tokens.head?, ¬ next.IsText) (writable : Writable tokens) :
    Writable (token :: tokens) where
  wellFormed := List.forall_mem_cons.2 ⟨wellFormed, writable.wellFormed⟩
  apart := List.isChain_cons.2
    ⟨fun next member meet => apart meet.1 next member meet.2, writable.apart⟩
  closed before name attributes behind split raw := by
    cases before with
    | nil =>
        obtain ⟨rfl, rfl⟩ := List.cons.inj split
        simp [opensRaw, raw] at ordinary
    | cons first before =>
        exact writable.closed before name attributes behind (List.cons.inj split).2 raw

/-- What stands behind a writable front is writable. -/
theorem of_append {front : List Token} (writable : Writable (front ++ tokens)) :
    Writable tokens where
  wellFormed token member := writable.wellFormed token (List.mem_append_right front member)
  apart := writable.apart.right_of_append
  closed before name attributes behind split := by
    apply writable.closed (front ++ before)
    rw [split, List.append_assoc]

/-- What follows a run of text is a tag. -/
theorem noText_of_text {content : String} (writable : Writable (text content :: tokens)) :
    ∀ token ∈ tokens.head?, ¬ token.IsText :=
  fun token member isText => (List.isChain_cons.1 writable.apart).1 token member ⟨trivial, isText⟩

end Writable

end Token
end Markup
end Pagelet
