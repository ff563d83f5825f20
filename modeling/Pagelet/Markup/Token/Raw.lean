import Pagelet.Markup.Token.Tag
import Pagelet.Text.Front

/-!
# Raw bodies

The bodies of `script` and `style` elements hold no markup: they are taken as
they are, up to the first end tag of the element's name.
-/

namespace Pagelet
namespace Markup
namespace Token

/-- The text behind the end tag of a raw body, for a text that stands behind a
`<`.  The name may be in any letter case, and ASCII blanks may follow it. -/
def closeRaw? (name : String) (cs : List Char) : Option (List Char) := do
  let rest ← Text.behind? ['/'] cs
  let spelling := rest.take name.length
  if spelling.map Char.toLower = name.toList.map Char.toLower then
    Text.behind? ['>'] (skipBlanks (rest.drop name.length))
  else none

/-- The end tag of a raw body is cut off the front of the text. -/
theorem length_le_of_closeRaw? {name : String} {cs behind : List Char}
    (h : closeRaw? name cs = some behind) : behind.length ≤ cs.length := by
  unfold closeRaw? at h
  obtain ⟨rest, slash, h⟩ := Option.bind_eq_some_iff.1 h
  simp only at h
  split at h
  · have first := length_skipBlanks_le (rest.drop name.length)
    have second := congrArg List.length (Text.behind?_eq_some_iff.1 slash)
    have third := congrArg List.length (Text.behind?_eq_some_iff.1 h)
    simp only [List.length_append, List.length_drop] at *
    omega
  · simp at h

/-- A raw body and the text behind its end tag, if it has one. -/
def splitRaw? (name : String) : List Char → Option (List Char × List Char)
  | [] => none
  | c :: rest =>
      match if c = '<' then closeRaw? name rest else none with
      | some behind => some ([], behind)
      | none => (splitRaw? name rest).map fun (body, behind) => (c :: body, behind)

/-- A token for a run of raw text, unless the run is empty. -/
def rawText : List Char → List Token
  | [] => []
  | cs => [text (String.ofList cs)]

/-- The tokens of a raw body with its end tag, and the text behind them.  A body
without an end tag runs to the end. -/
def readRaw (name : String) (cs : List Char) : List Token × List Char :=
  match splitRaw? name cs with
  | some (body, behind) => (rawText body ++ [finish name], behind)
  | none => (rawText cs, [])

end Token
end Markup
end Pagelet
