import Pagelet.Markup.Cursor
import Pagelet.Markup.Token.Raw
import Pagelet.Text.Offset

/-!
# Reading tokens in place

Each reader starts at an offset and gives the offset at which it stops, together with
what it has read.  A text is sliced only between two offsets at which it may be cut; any
other slice is a slip.  Each call for a token moves forward, so the whole of any text is
read.
-/

namespace Pagelet
namespace Markup
namespace Cursor

open Text (isAsciiBlank isBoundary between)
open Token (isNameChar)

/-- A slice between offsets that are out of order, outside the text, or within one of its
characters. -/
structure Slip where
  /-- The offset at which the slice begins. -/
  first : Nat
  /-- The offset at which it ends. -/
  last : Nat
deriving DecidableEq, Repr

/-- The bytes of a text. -/
def bytes (source : String) : List UInt8 :=
  bytesOf source.toList

/-- The text between two offsets. -/
def slice (source : String) (first last : Nat) : Except Slip String :=
  if first ≤ last ∧ isBoundary source first = true ∧ isBoundary source last = true then
    .ok (between source first last)
  else .error ⟨first, last⟩

/-- The bytes from an offset on, as many as are asked for. -/
def window (bytes : List UInt8) (offset size : Nat) : Except Slip (List UInt8) :=
  if offset + size ≤ bytes.length then .ok ((bytes.drop offset).take size)
  else .error ⟨offset, offset + size⟩

/-- The offset behind the next `-->`, or the end. -/
def behindComment (bytes : List UInt8) (offset : Nat) : Except Slip Nat :=
  if offset + 2 < bytes.length then
    match window bytes offset 3 with
    | .error slip => .error slip
    | .ok next =>
        if next = bytesOf ['-', '-', '>'] then .ok (offset + 3)
        else behindComment bytes (offset + 1)
  else .ok bytes.length
termination_by bytes.length - offset

/-- The offset behind a comment or a declaration, if one begins at the offset. -/
def passOver? (bytes : List UInt8) (offset : Nat) : Except Slip (Option Nat) :=
  if startsWith ['<', '!', '-', '-'] bytes offset then
    (behindComment bytes (offset + 4)).map some
  else if startsWith ['<', '!'] bytes offset || startsWith ['<', '?'] bytes offset then
    .ok (some (behindTag bytes (offset + 2)))
  else .ok none

/-- The name at the offset, in small letters, and the offset behind it. -/
def readName? (source : String) (offset : Nat) : Except Slip (Option (String × Nat)) :=
  let stop := skipWhile isNameChar (bytes source) offset
  if offset < stop then
    (slice source offset stop).map fun name =>
      some (String.ofList (name.toList.map Char.toLower), stop)
  else .ok none

/-- A value behind its opening mark.  Without a closing mark it runs to the end. -/
def readQuoted (mark : Char) (source : String) (offset : Nat) : Except Slip (String × Nat) :=
  let stop := (find? mark (bytes source) offset).getD (bytes source).length
  (slice source offset stop).map fun value => (value, min (stop + 1) (bytes source).length)

/-- A character of a value without quotes. -/
def isPlain (c : Char) : Bool :=
  !isAsciiBlank c && c != '>'

/-- The value of an attribute as written, and the offset behind it. -/
def readValue (source : String) (offset : Nat) : Except Slip (String × Nat) :=
  if looksAt '"' (bytes source) offset then readQuoted '"' source (offset + 1)
  else if looksAt '\'' (bytes source) offset then readQuoted '\'' source (offset + 1)
  else
    let stop := skipWhile isPlain (bytes source) offset
    (slice source offset stop).map fun value => (value, stop)

section Parts

variable {source name value : String} {offset stop : Nat}

theorem map_eq_ok_iff {α β : Type} {f : α → β} {read : Except Slip α} {result : β} :
    read.map f = .ok result ↔ ∃ inner, read = .ok inner ∧ f inner = result := by
  cases read with
  | error slip => exact ⟨nofun, fun ⟨_, found, _⟩ => nomatch found⟩
  | ok inner => simp [Except.map]

/-- The end of a comment is not in front of the offset, nor behind the bytes. -/
theorem behindComment_range {bytes : List UInt8} (within : offset ≤ bytes.length)
    (read : behindComment bytes offset = .ok stop) : offset ≤ stop ∧ stop ≤ bytes.length := by
  fun_induction behindComment bytes offset with
  | case1 => cases read
  | case2 =>
      cases read
      omega
  | case3 offset _ _ _ _ ih =>
      have := ih (by omega) read
      omega
  | case4 =>
      cases read
      exact ⟨within, Nat.le_refl _⟩

/-- What is looked at begins and ends inside the bytes. -/
theorem add_le_of_startsWith {bytes : List UInt8} (word : List Char)
    (notEmpty : 0 < (bytesOf word).length) (here : startsWith word bytes offset = true) :
    offset + (bytesOf word).length ≤ bytes.length := by
  have front := (List.isPrefixOf_iff_prefix.1 here).length_le
  rw [List.length_drop] at front
  omega

/-- What is passed over is not empty and ends inside the bytes. -/
theorem passOver?_range {bytes : List UInt8} (read : passOver? bytes offset = .ok (some stop)) :
    offset < stop ∧ stop ≤ bytes.length := by
  unfold passOver? at read
  split at read
  · next here =>
    obtain ⟨behind, found, same⟩ := map_eq_ok_iff.1 read
    have within : offset + 4 ≤ bytes.length :=
      add_le_of_startsWith ['<', '!', '-', '-'] (by decide) here
    cases same
    have range := behindComment_range within found
    omega
  · split at read
    · next here =>
      have within : offset + 2 ≤ bytes.length := by
        rcases Bool.or_eq_true_iff.1 here with here | here
        · exact add_le_of_startsWith ['<', '!'] (by decide) here
        · exact add_le_of_startsWith ['<', '?'] (by decide) here
      cases read
      have least := le_behindTag within
      exact ⟨by omega, behindTag_le⟩
    · cases read

theorem readName?_range (read : readName? source offset = .ok (some (name, stop))) :
    offset < stop ∧ stop ≤ (bytes source).length := by
  unfold readName? at read
  dsimp only at read
  split at read
  · next moved =>
    obtain ⟨spelling, -, same⟩ := map_eq_ok_iff.1 read
    cases same
    have bound := skipWhile_le isNameChar (bytes source) offset
    omega
  · cases read

theorem readQuoted_range {mark : Char} (within : offset ≤ (bytes source).length)
    (read : readQuoted mark source offset = .ok (value, stop)) :
    offset ≤ stop ∧ stop ≤ (bytes source).length := by
  obtain ⟨spelling, -, same⟩ := map_eq_ok_iff.1 read
  cases same
  cases found : find? mark (bytes source) offset with
  | none => simp only [Option.getD_none]; omega
  | some place =>
      have range := range_of_find? found
      simp only [Option.getD_some]
      omega

theorem readValue_range (within : offset ≤ (bytes source).length)
    (read : readValue source offset = .ok (value, stop)) :
    offset ≤ stop ∧ stop ≤ (bytes source).length := by
  have quoted {mark : Char} (here : looksAt mark (bytes source) offset = true)
      (read : readQuoted mark source (offset + 1) = .ok (value, stop)) :
      offset ≤ stop ∧ stop ≤ (bytes source).length := by
    have range := readQuoted_range (lt_of_looksAt here) read
    omega
  unfold readValue at read
  split at read
  · next here => exact quoted here read
  · split at read
    · next here => exact quoted here read
    · obtain ⟨spelling, -, same⟩ := map_eq_ok_iff.1 read
      cases same
      have bound := skipWhile_le isPlain (bytes source) offset
      exact ⟨le_skipWhile isPlain (bytes source) offset, by omega⟩

end Parts

/-- What stands in a tag behind its name, and the offset behind the tag. -/
structure TagEnd where
  /-- The attributes. -/
  attributes : Attributes
  /-- Whether the tag ends with a slash. -/
  selfClosing : Bool
  /-- The offset behind the tag. -/
  stop : Nat
deriving DecidableEq, Repr

/-- The same tag with one more attribute in front. -/
def TagEnd.cons (name value : String) (tag : TagEnd) : TagEnd :=
  { tag with
    attributes := (name, String.ofList (Reference.decode value.toList)) :: tag.attributes }

/-- Reads a start tag behind its name.  Characters that no name may hold end the list of
attributes; a tag that is not closed is none. -/
def readTagEnd? (source : String) (offset : Nat) : Except Slip (Option TagEnd) :=
  let start := skipWhile isAsciiBlank (bytes source) offset
  if _within : start < (bytes source).length then
    if looksAt '>' (bytes source) start then .ok (some ⟨[], false, start + 1⟩)
    else if looksAt '/' (bytes source) start then
      let next := skipWhile isAsciiBlank (bytes source) (start + 1)
      if looksAt '>' (bytes source) next then .ok (some ⟨[], true, next + 1⟩)
      else readTagEnd? source next
    else
      match _name : readName? source start with
      | .error slip => .error slip
      | .ok none => .ok (some ⟨[], false, behindTag (bytes source) start⟩)
      | .ok (some (name, behind)) =>
          let sign := skipWhile isAsciiBlank (bytes source) behind
          if _sign : looksAt '=' (bytes source) sign then
            match _value : readValue source (skipWhile isAsciiBlank (bytes source) (sign + 1)) with
            | .error slip => .error slip
            | .ok (value, next) =>
                (readTagEnd? source next).map (Option.map (TagEnd.cons name value))
          else (readTagEnd? source sign).map (Option.map (TagEnd.cons name ""))
  else .ok none
termination_by (bytes source).length - offset
decreasing_by
  all_goals have first := le_skipWhile isAsciiBlank (bytes source) offset
  · have second := le_skipWhile isAsciiBlank (bytes source)
      (skipWhile isAsciiBlank (bytes source) offset + 1)
    omega
  · have range := readName?_range _name
    have second := le_skipWhile isAsciiBlank (bytes source) behind
    have within := lt_of_looksAt _sign
    have third := le_skipWhile isAsciiBlank (bytes source) (sign + 1)
    have bound := skipWhile_le isAsciiBlank (bytes source) (sign + 1)
    have value := readValue_range (by omega) _value
    omega
  · have range := readName?_range _name
    have second := le_skipWhile isAsciiBlank (bytes source) behind
    omega

/-- Reads the start tag at the offset of its `<`. -/
def readStartTag? (source : String) (offset : Nat) : Except Slip (Option (String × TagEnd)) :=
  if ((bytes source)[offset + 1]?.map fun byte => (Char.ofUInt8 byte).isAlpha) = some true then
    match readName? source (offset + 1) with
    | .error slip => .error slip
    | .ok none => .ok none
    | .ok (some (name, behind)) => (readTagEnd? source behind).map (Option.map (name, ·))
  else .ok none

/-- Reads the end tag at the offset of its `<`: its name, and the offset behind it. -/
def readEndTag? (source : String) (offset : Nat) : Except Slip (Option (String × Nat)) :=
  (readName? source (skipWhile isAsciiBlank (bytes source) (offset + 2))).map fun named =>
    named.bind fun (name, behind) =>
      (find? '>' (bytes source) behind).map fun sign => (name, sign + 1)

/-- A token for a run of raw text, unless the run is empty. -/
def rawText (source : String) (first last : Nat) : Except Slip (List Token) :=
  if first < last then (slice source first last).map fun body => [.text body] else .ok []

/-- The tokens of a raw body with its end tag, and the offset behind them. -/
def readRaw (name : String) (source : String) (offset : Nat) : Except Slip (List Token × Nat) :=
  match endTag? (bytes source) (bytesOf name.toList) offset with
  | some (place, stop) =>
      (rawText source offset place).map fun body => (body ++ [.finish name], stop)
  | none =>
      (rawText source offset (bytes source).length).map fun body => (body, (bytes source).length)

/-- Reads the start tag at the offset of its `<`, together with a raw body if it has one. -/
def readElement? (source : String) (offset : Nat) : Except Slip (Option (List Token × Nat)) :=
  match readStartTag? source offset with
  | .error slip => .error slip
  | .ok none => .ok none
  | .ok (some (name, tag)) =>
      let token := Token.start name tag.attributes tag.selfClosing
      if !tag.selfClosing && rawNames.contains name then
        (readRaw name source tag.stop).map fun (tokens, stop) => some (token :: tokens, stop)
      else .ok (some ([token], tag.stop))

/-- Reads a run of text up to the next `<` behind its first byte. -/
def readText (source : String) (offset : Nat) : Except Slip (List Token × Nat) :=
  let stop := (find? '<' (bytes source) (offset + 1)).getD (bytes source).length
  (slice source offset stop).map fun run =>
    ([.text (String.ofList (Reference.decode run.toList))], stop)

/-- Reads the tokens that begin at the offset.  There is more than one only where a start tag
has a raw body, which is read with it. -/
def readTokens (source : String) (offset : Nat) : Except Slip (List Token × Nat) :=
  if startsWith ['<', '/'] (bytes source) offset then
    match readEndTag? source offset with
    | .error slip => .error slip
    | .ok (some (name, stop)) => .ok ([.finish name], stop)
    | .ok none => readText source offset
  else if looksAt '<' (bytes source) offset then
    match readElement? source offset with
    | .error slip => .error slip
    | .ok (some read) => .ok read
    | .ok none => readText source offset
  else readText source offset

/-- A call for a token: the tokens that begin behind the comments and declarations at the
offset, the first of them to be handed out and the others to be kept, and the offset at
which the call stops.  There are none at the end of the text. -/
def next (source : String) (offset : Nat) : Except Slip (List Token × Nat) :=
  if _within : offset < (bytes source).length then
    match _passed : passOver? (bytes source) offset with
    | .error slip => .error slip
    | .ok (some stop) => next source stop
    | .ok none => readTokens source offset
  else .ok ([], offset)
termination_by (bytes source).length - offset
decreasing_by
  have range := passOver?_range _passed
  omega

/-! ## Progress -/

section Progress

variable {source name : String} {tokens : List Token} {tag : TagEnd} {offset stop : Nat}

/-- The attributes of a tag end at or behind their beginning, inside the bytes. -/
theorem readTagEnd?_range (read : readTagEnd? source offset = .ok (some tag)) :
    offset ≤ tag.stop ∧ tag.stop ≤ (bytes source).length := by
  fun_induction readTagEnd? source offset generalizing tag with
  | case1 offset start within =>
      obtain rfl := Option.some.inj (Except.ok.inj read)
      have first : offset ≤ start := le_skipWhile isAsciiBlank (bytes source) offset
      exact ⟨Nat.le_succ_of_le first, within⟩
  | case2 offset start within _ _ close =>
      obtain rfl := Option.some.inj (Except.ok.inj read)
      have first : offset ≤ start := le_skipWhile isAsciiBlank (bytes source) offset
      have second : start + 1 ≤ close := le_skipWhile isAsciiBlank (bytes source) (start + 1)
      have bound : close < (bytes source).length := lt_of_looksAt ‹_›
      exact ⟨by dsimp only; omega, bound⟩
  | case3 offset start within _ _ close _ =>
      rename_i ih
      have first : offset ≤ start := le_skipWhile isAsciiBlank (bytes source) offset
      have second : start + 1 ≤ close := le_skipWhile isAsciiBlank (bytes source) (start + 1)
      have range := ih read
      omega
  | case4 => cases read
  | case5 offset start within =>
      obtain rfl := Option.some.inj (Except.ok.inj read)
      have first : offset ≤ start := le_skipWhile isAsciiBlank (bytes source) offset
      have second := le_behindTag (Nat.le_of_lt within)
      exact ⟨Nat.le_trans first second, behindTag_le⟩
  | case6 => cases read
  | case7 offset start within _ _ name behind named sign equals value close valued =>
      rename_i ih
      obtain ⟨found, closed, same⟩ := map_eq_ok_iff.1 read
      obtain ⟨inner, rfl, rfl⟩ := Option.map_eq_some_iff.1 same
      have first : offset ≤ start := le_skipWhile isAsciiBlank (bytes source) offset
      have second := readName?_range named
      have third : behind ≤ sign := le_skipWhile isAsciiBlank (bytes source) behind
      have fourth := le_skipWhile isAsciiBlank (bytes source) (sign + 1)
      have bound := skipWhile_le isAsciiBlank (bytes source) (sign + 1)
      have within := lt_of_looksAt equals
      have fifth := readValue_range (by omega) valued
      have range := ih closed
      simp only [TagEnd.cons]
      omega
  | case8 offset start within _ _ name behind named sign _ =>
      rename_i ih
      obtain ⟨found, closed, same⟩ := map_eq_ok_iff.1 read
      obtain ⟨inner, rfl, rfl⟩ := Option.map_eq_some_iff.1 same
      have first : offset ≤ start := le_skipWhile isAsciiBlank (bytes source) offset
      have second := readName?_range named
      have third : behind ≤ sign := le_skipWhile isAsciiBlank (bytes source) behind
      have range := ih closed
      simp only [TagEnd.cons]
      omega
  | case9 => cases read

/-- A start tag is at least two bytes long and ends inside the bytes. -/
theorem readStartTag?_range (read : readStartTag? source offset = .ok (some (name, tag))) :
    offset + 1 < tag.stop ∧ tag.stop ≤ (bytes source).length := by
  unfold readStartTag? at read
  split at read
  · split at read
    · cases read
    · cases read
    · next named =>
      obtain ⟨found, closed, same⟩ := map_eq_ok_iff.1 read
      obtain ⟨inner, rfl, parts⟩ := Option.map_eq_some_iff.1 same
      obtain ⟨-, rfl⟩ := Prod.mk.inj parts
      have first := readName?_range named
      have second := readTagEnd?_range closed
      omega
  · cases read

theorem readEndTag?_range (read : readEndTag? source offset = .ok (some (name, stop))) :
    offset + 2 < stop ∧ stop ≤ (bytes source).length := by
  obtain ⟨named, found, ends⟩ := map_eq_ok_iff.1 read
  obtain ⟨⟨spelling, behind⟩, rfl, closes⟩ := Option.bind_eq_some_iff.1 ends
  obtain ⟨sign, close, same⟩ := Option.map_eq_some_iff.1 closes
  obtain ⟨-, rfl⟩ := Prod.mk.inj same
  have first := le_skipWhile isAsciiBlank (bytes source) (offset + 2)
  have second := readName?_range found
  have third := range_of_find? close
  omega

theorem readRaw_range (within : offset ≤ (bytes source).length)
    (read : readRaw name source offset = .ok (tokens, stop)) :
    offset ≤ stop ∧ stop ≤ (bytes source).length := by
  unfold readRaw at read
  split at read
  · next closed =>
    obtain ⟨body, -, same⟩ := map_eq_ok_iff.1 read
    obtain ⟨-, rfl⟩ := Prod.mk.inj same
    have range := range_of_endTag? closed
    omega
  · obtain ⟨body, -, same⟩ := map_eq_ok_iff.1 read
    obtain ⟨-, rfl⟩ := Prod.mk.inj same
    exact ⟨within, Nat.le_refl _⟩

/-- An element that is read is not empty, ends inside the bytes and gives a token. -/
theorem readElement?_range (read : readElement? source offset = .ok (some (tokens, stop))) :
    offset < stop ∧ stop ≤ (bytes source).length ∧ tokens ≠ [] := by
  unfold readElement? at read
  split at read
  · cases read
  · cases read
  · next name tag opened =>
    have first := readStartTag?_range opened
    dsimp only at read
    split at read
    · obtain ⟨⟨body, behind⟩, raw, same⟩ := map_eq_ok_iff.1 read
      obtain ⟨rfl, rfl⟩ := Prod.mk.inj (Option.some.inj same)
      have second := readRaw_range first.2 raw
      exact ⟨by omega, second.2, List.cons_ne_nil _ _⟩
    · obtain ⟨rfl, rfl⟩ := Prod.mk.inj (Option.some.inj (Except.ok.inj read))
      exact ⟨by omega, first.2, List.cons_ne_nil _ _⟩

theorem readText_range (within : offset < (bytes source).length)
    (read : readText source offset = .ok (tokens, stop)) :
    offset < stop ∧ stop ≤ (bytes source).length ∧ tokens ≠ [] := by
  obtain ⟨run, -, same⟩ := map_eq_ok_iff.1 read
  obtain ⟨rfl, rfl⟩ := Prod.mk.inj same
  cases found : find? '<' (bytes source) (offset + 1) with
  | none => exact ⟨within, Nat.le_refl _, List.cons_ne_nil _ _⟩
  | some place =>
      have range := range_of_find? found
      exact ⟨range.1, Nat.le_of_lt range.2, List.cons_ne_nil _ _⟩

/-- Wherever there are bytes left, some are read and give a token. -/
theorem readTokens_range (within : offset < (bytes source).length)
    (read : readTokens source offset = .ok (tokens, stop)) :
    offset < stop ∧ stop ≤ (bytes source).length ∧ tokens ≠ [] := by
  unfold readTokens at read
  split at read
  · split at read
    · cases read
    · next closed =>
      obtain ⟨rfl, rfl⟩ := Prod.mk.inj (Except.ok.inj read)
      have range := readEndTag?_range closed
      exact ⟨by omega, range.2, List.cons_ne_nil _ _⟩
    · exact readText_range within read
  · split at read
    · split at read
      · cases read
      · next opened =>
        obtain rfl := Except.ok.inj read
        exact readElement?_range opened
      · exact readText_range within read
    · exact readText_range within read

/-- A call that gives a token moves forward. -/
theorem next_range {token : Token} {more : List Token}
    (read : next source offset = .ok (token :: more, stop)) :
    offset < stop ∧ stop ≤ (bytes source).length := by
  fun_induction next source offset with
  | case1 => cases read
  | case2 offset _ behind passed ih =>
      have first := passOver?_range passed
      have second := ih read
      omega
  | case3 offset within =>
      have range := readTokens_range within read
      exact ⟨range.1, range.2.1⟩
  | case4 => cases read

/-- A call that gives no token stops at the end of the text. -/
theorem eq_length_of_next_nil (within : offset ≤ (bytes source).length)
    (read : next source offset = .ok ([], stop)) : stop = (bytes source).length := by
  fun_induction next source offset with
  | case1 => cases read
  | case2 offset _ behind passed ih => exact ih (passOver?_range passed).2 read
  | case3 offset before => exact absurd rfl (readTokens_range before read).2.2
  | case4 offset =>
      obtain ⟨-, rfl⟩ := Prod.mk.inj (Except.ok.inj read)
      omega

end Progress

/-- The tokens of all calls from an offset on. -/
def tokens (source : String) (offset : Nat) : Except Slip (List Token) :=
  match _read : next source offset with
  | .error slip => .error slip
  | .ok ([], _) => .ok []
  | .ok (token :: more, stop) => (tokens source stop).map (token :: more ++ ·)
termination_by (bytes source).length - offset
decreasing_by
  have range := next_range _read
  omega

end Cursor
end Markup
end Pagelet
