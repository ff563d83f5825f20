import Mathlib
import Pagelet.Markup.Cursor.Reader
import Pagelet.Markup.Token.Scan
import Pagelet.Proofs.Markup.EndTags

/-!
# Reading in place

Where a part of the text begins, each reader in place reads what the reader of characters
does, and stops where the rest that it leaves begins.  So no slice slips, and the calls for
tokens give the tokens of the text.
-/

namespace Pagelet
namespace Markup
namespace Cursor

open Text (isAsciiBlank isBoundary)
open Token (isNameChar skipBlanks)

variable {source name : String} {c : Char} {cs run rest : List Char}

/-- The offset at which a part of the source begins that reaches to its end. -/
def placeOf (source : String) (rest : List Char) : Nat :=
  offsetOf source.toList rest

theorem placeOf_nil : placeOf source [] = (bytes source).length :=
  offsetOf_nil

/-- What begins with a character begins within the text. -/
theorem placeOf_lt (suffix : c :: rest <:+ source.toList) :
    placeOf source (c :: rest) < (bytes source).length :=
  (offsetOf_lt_iff suffix).2 (List.cons_ne_nil c rest)

/-- Nothing stands at the end of the text. -/
theorem eq_nil_of_placeOf (suffix : rest <:+ source.toList)
    (place : placeOf source rest = (bytes source).length) : rest = [] := by
  by_contra notEmpty
  have within := (offsetOf_lt_iff suffix).2 notEmpty
  exact Nat.ne_of_lt within place

/-- A text may be cut where one of its ends begins. -/
theorem isBoundary_placeOf (suffix : rest <:+ source.toList) :
    isBoundary source (placeOf source rest) = true := by
  obtain ⟨front, whole⟩ := suffix
  refine Text.isBoundary_of_append front rest whole.symm ?_
  rw [placeOf, ← whole, offsetOf_append]

/-- The text may be cut exactly where one of its ends begins. -/
theorem isBoundary_iff {offset : Nat} :
    isBoundary source offset = true ↔
      ∃ rest, rest <:+ source.toList ∧ offset = placeOf source rest := by
  constructor
  · intro boundary
    rw [isBoundary, String.Pos.Raw.isValid_eq_true_iff,
      String.Pos.Raw.isValid_iff_exists_append] at boundary
    obtain ⟨front, back, rfl, place⟩ := boundary
    refine ⟨back.toList, ?_, ?_⟩
    · rw [String.toList_append]
      exact List.suffix_append _ _
    · rw [placeOf, String.toList_append, offsetOf_append, ← String.utf8ByteSize_ofList,
        String.ofList_toList, ← String.byteIdx_rawEndPos, ← place]
  · rintro ⟨rest, suffix, rfl⟩
    exact isBoundary_placeOf suffix

/-- Between the places of two ends of the text stands the part that only the longer one
has. -/
theorem slice_placeOf (suffix : run ++ rest <:+ source.toList) :
    slice source (placeOf source (run ++ rest)) (placeOf source rest) =
      .ok (String.ofList run) := by
  have step := offsetOf_add run suffix
  have order : placeOf source (run ++ rest) ≤ placeOf source rest := by
    unfold placeOf
    omega
  have first := isBoundary_placeOf suffix
  have last := isBoundary_placeOf ((List.suffix_append run rest).trans suffix)
  rw [slice, if_pos ⟨order, first, last⟩]
  obtain ⟨front, whole⟩ := suffix
  rw [Text.between_of_append front run rest (by rw [← whole, List.append_assoc])]
  · rw [placeOf, ← whole, offsetOf_append]
  · rw [placeOf, ← step, ← whole, offsetOf_append]

/-- A cut within a character is a slip. -/
example : slice "é<" 0 1 = .error ⟨0, 1⟩ ∧ slice "é<" 0 2 = .ok "é" := by
  decide +kernel

/-- A span of characters is sliced out in place. -/
theorem slice_takeWhile (p : Char → Bool) (suffix : cs <:+ source.toList) :
    slice source (placeOf source cs) (placeOf source (cs.dropWhile p)) =
      .ok (String.ofList (cs.takeWhile p)) := by
  have whole := List.takeWhile_append_dropWhile (p := p) (l := cs)
  have parts : cs.takeWhile p ++ cs.dropWhile p <:+ source.toList := by rwa [whole]
  have sliced := slice_placeOf parts
  rwa [whole] at sliced

theorem looksAt_placeOf (ascii : c.toNat < 128) (suffix : c :: rest <:+ source.toList) :
    looksAt c (bytes source) (placeOf source (c :: rest)) = true := by
  rw [bytes, placeOf, looksAt_offsetOf ascii suffix, List.head?_cons, beq_self_eq_true]

theorem looksAt_placeOf_eq_false (ascii : c.toNat < 128) (suffix : cs <:+ source.toList)
    (other : ∀ rest, cs = c :: rest → False) :
    looksAt c (bytes source) (placeOf source cs) = false := by
  rw [bytes, placeOf, looksAt_offsetOf ascii suffix, beq_eq_false_iff_ne]
  intro first
  obtain ⟨rest, same⟩ := List.head?_eq_some_iff.1 first
  exact other rest same

/-- Behind an ASCII character the next offset begins. -/
theorem placeOf_cons (ascii : c.toNat < 128) (suffix : c :: rest <:+ source.toList) :
    placeOf source rest = placeOf source (c :: rest) + 1 := by
  have one := congrArg List.length (utf8EncodeChar_of_ascii ascii)
  rw [String.length_utf8EncodeChar, List.length_singleton] at one
  have step := offsetOf_cons suffix
  rw [one] at step
  exact step.symm

/-- No `-->` begins within a character. -/
theorem startsWith_within {further : Nat} {word : List Char} {sign : Char}
    (ascii : sign.toNat < 128) (suffix : c :: rest <:+ cs) (positive : 0 < further)
    (within : further < c.utf8Size) :
    startsWith (sign :: word) (bytesOf cs) (offsetOf cs (c :: rest) + further) = false := by
  have absent := looksAt_within ascii suffix positive within
  rw [Bool.eq_false_iff, ne_eq, startsWith, List.isPrefixOf_iff_prefix] at *
  rintro ⟨behind, begins⟩
  refine absent ((looksAt_iff ascii).2 ⟨bytesOf word ++ behind, ?_⟩)
  rw [← begins, bytesOf_cons, utf8EncodeChar_of_ascii ascii]
  rfl

theorem behindComment_of_startsWith {bytes : List UInt8} {offset : Nat}
    (here : startsWith ['-', '-', '>'] bytes offset = true) :
    behindComment bytes offset = .ok (offset + 3) := by
  have within : offset + 3 ≤ bytes.length :=
    add_le_of_startsWith ['-', '-', '>'] (by decide) here
  have same : bytesOf ['-', '-', '>'] = (bytes.drop offset).take 3 :=
    List.prefix_iff_eq_take.1 (List.isPrefixOf_iff_prefix.1 here)
  rw [behindComment, if_pos (by omega), window, if_pos within]
  simp only [same, if_true]

/-- The end of a comment is searched on where none stands. -/
theorem behindComment_succ {bytes : List UInt8} {offset : Nat}
    (absent : startsWith ['-', '-', '>'] bytes offset = false) :
    behindComment bytes offset = behindComment bytes (offset + 1) := by
  rw [behindComment]
  split
  · next within =>
    rw [window, if_pos (by omega)]
    have other : (bytes.drop offset).take 3 ≠ bytesOf ['-', '-', '>'] := by
      intro same
      rw [startsWith, Bool.eq_false_iff, ne_eq, List.isPrefixOf_iff_prefix, ← same] at absent
      exact absent (List.take_prefix _ _)
    simp only [other, if_false]
  · next short =>
    rw [behindComment, if_neg (by omega)]

theorem behindComment_add {bytes : List UInt8} {offset : Nat} (size : Nat)
    (absent : ∀ further < size, startsWith ['-', '-', '>'] bytes (offset + further) = false) :
    behindComment bytes offset = behindComment bytes (offset + size) := by
  induction size with
  | zero => rfl
  | succ size ih =>
      rw [ih fun further before => absent further (Nat.lt_succ_of_lt before),
        behindComment_succ (absent size (Nat.lt_succ_self size))]
      rfl

/-- A comment ends in place where it ends in the text. -/
theorem behindComment_placeOf (suffix : cs <:+ source.toList) :
    behindComment (bytes source) (placeOf source cs) =
      .ok (placeOf source (Token.behindComment cs)) := by
  unfold bytes placeOf
  fun_induction Token.behindComment cs with
  | case1 =>
      rw [behindComment, if_neg (by rw [offsetOf_nil]; omega), offsetOf_nil]
  | case2 rest =>
      have step := offsetOf_add ['-', '-', '>'] suffix
      rw [behindComment_of_startsWith, ← step]
      · rfl
      · rw [startsWith_offsetOf (by simp) suffix]
        rfl
  | case3 c rest other ih =>
      -- the bytes of one character are passed one by one; at none of them does the end stand
      have step := offsetOf_cons suffix
      rw [behindComment_add c.utf8Size, step]
      · exact ih ((List.suffix_cons c rest).trans suffix)
      · intro further within
        rcases Nat.eq_zero_or_pos further with rfl | positive
        · rw [Nat.add_zero, startsWith_offsetOf (by simp) suffix, Bool.eq_false_iff, ne_eq,
            List.isPrefixOf_iff_prefix]
          rintro ⟨behind, same⟩
          cases same
          exact other behind rfl rfl
        · exact startsWith_within (by decide) suffix positive within

theorem readName?_placeOf (suffix : cs <:+ source.toList) :
    readName? source (placeOf source cs) =
      .ok ((Token.readName? cs).map fun (name, rest) => (name, placeOf source rest)) := by
  have stop : skipWhile isNameChar (bytes source) (placeOf source cs) =
      placeOf source (cs.dropWhile isNameChar) := skipWhile_offsetOf blind_isNameChar suffix
  have whole := List.takeWhile_append_dropWhile (p := isNameChar) (l := cs)
  have parts : cs.takeWhile isNameChar ++ cs.dropWhile isNameChar <:+ source.toList := by
    rwa [whole]
  have step := offsetOf_add (cs.takeWhile isNameChar) parts
  rw [whole] at step
  rw [readName?, stop, slice_takeWhile isNameChar suffix, Token.readName?]
  cases name : cs.takeWhile isNameChar with
  | nil =>
      rw [name, String.utf8Len_nil, Nat.add_zero] at step
      rw [placeOf, placeOf, ← step]
      simp only [Nat.lt_irrefl, if_false, Option.map_none]
  | cons c more =>
      have moved : placeOf source cs < placeOf source (cs.dropWhile isNameChar) := by
        have size := c.utf8Size_pos
        rw [name, String.utf8Len_cons] at step
        unfold placeOf
        omega
      simp only [moved, if_true, Except.map, String.toList_ofList, Option.map_some]

/-- Behind an ASCII character at which a run stops the next offset begins. -/
theorem placeOf_drop_dropWhile {mark : Char} (ascii : mark.toNat < 128)
    (suffix : cs <:+ source.toList) :
    min (placeOf source (cs.dropWhile (· != mark)) + 1) (bytes source).length =
      placeOf source ((cs.dropWhile (· != mark)).drop 1) := by
  have ends := (List.dropWhile_suffix (· != mark)).trans suffix
  cases behind : cs.dropWhile (· != mark) with
  | nil =>
      rw [List.drop_nil, placeOf_nil]
      exact Nat.min_eq_right (Nat.le_succ _)
  | cons sign more =>
      have same : sign = mark := by
        simpa [behind] using List.head?_dropWhile_not (· != mark) cs
      subst same
      rw [behind] at ends
      rw [← placeOf_cons ascii ends, List.drop_one, List.tail_cons]
      exact Nat.min_eq_left (offsetOf_le more)

theorem readQuoted_placeOf {mark : Char} (ascii : mark.toNat < 128)
    (suffix : cs <:+ source.toList) :
    readQuoted mark source (placeOf source cs) =
      .ok (String.ofList (cs.takeWhile (· != mark)),
        placeOf source ((cs.dropWhile (· != mark)).drop 1)) := by
  have stop : (find? mark (bytes source) (placeOf source cs)).getD (bytes source).length =
      placeOf source (cs.dropWhile (· != mark)) := by
    rw [placeOf, bytes, find?_offsetOf ascii suffix]
    split
    · rfl
    · next absent => rw [dropWhile_ne_eq_nil_iff.2 absent, placeOf, offsetOf_nil, Option.getD_none]
  rw [readQuoted, stop, slice_takeWhile _ suffix]
  rw [← placeOf_drop_dropWhile ascii suffix]
  rfl

theorem blind_isPlain : Blind isPlain := by
  intro c d first second
  have same := Blind.ne (c := '>') (by decide) c d first second
  simp only [isPlain, isAsciiBlank_of_le first, isAsciiBlank_of_le second, same]

/-- A value is read in place as in the text. -/
theorem readValue_placeOf (suffix : cs <:+ source.toList) :
    readValue source (placeOf source cs) =
      .ok (String.ofList (Token.readValue cs).1, placeOf source (Token.readValue cs).2) := by
  rw [readValue]
  fun_cases Token.readValue cs with
  | case1 rest =>
      rw [if_pos (looksAt_placeOf (by decide) suffix), ← placeOf_cons (by decide) suffix]
      exact readQuoted_placeOf (by decide) ((List.suffix_cons '"' rest).trans suffix)
  | case2 rest =>
      have other := looksAt_placeOf_eq_false (c := '"') (by decide) suffix (by simp)
      rw [if_neg (Bool.eq_false_iff.1 other), if_pos (looksAt_placeOf (by decide) suffix),
        ← placeOf_cons (by decide) suffix]
      exact readQuoted_placeOf (by decide) ((List.suffix_cons '\'' rest).trans suffix)
  | case3 _ _ notDouble =>
      rename_i notSingle
      have double := looksAt_placeOf_eq_false (by decide) suffix notDouble
      have single := looksAt_placeOf_eq_false (by decide) suffix notSingle
      have stop : skipWhile isPlain (bytes source) (placeOf source cs) =
          placeOf source (cs.dropWhile isPlain) := skipWhile_offsetOf blind_isPlain suffix
      rw [if_neg (Bool.eq_false_iff.1 double), if_neg (Bool.eq_false_iff.1 single), stop]
      dsimp only
      rw [slice_takeWhile isPlain suffix]
      rfl

/-- A tag as it is read in place. -/
def TagEnd.ofToken (source : String) (tag : Token.TagEnd) : TagEnd :=
  ⟨tag.attributes, tag.selfClosing, placeOf source tag.behind⟩

/-- Behind blanks the reading goes on where the next character begins. -/
theorem start_of_skipBlanks (suffix : cs <:+ source.toList) (blanks : skipBlanks cs = rest) :
    skipWhile isAsciiBlank (bytes source) (placeOf source cs) = placeOf source rest ∧
      rest <:+ source.toList := by
  subst blanks
  exact ⟨skipWhile_offsetOf blind_isAsciiBlank suffix,
    (Token.skipBlanks_suffix cs).trans suffix⟩

theorem map_ofToken (name : String) (value : List Char) (tag : Option Token.TagEnd) :
    (Except.ok (tag.map (TagEnd.ofToken source)) : Except Slip (Option TagEnd)).map
        (Option.map (TagEnd.cons name (String.ofList value))) =
      .ok ((tag.map (Token.TagEnd.cons name value)).map (TagEnd.ofToken source)) := by
  cases tag with
  | none => rfl
  | some tag => simp [Except.map, TagEnd.cons, TagEnd.ofToken, Token.TagEnd.cons]

/-- In front of neither `>` nor `/` an attribute is read, and the tag behind it. -/
theorem readTagEnd?_eq_bind {offset start : Nat}
    (blanks : skipWhile isAsciiBlank (bytes source) offset = start)
    (within : start < (bytes source).length)
    (noClose : looksAt '>' (bytes source) start = false)
    (noSlash : looksAt '/' (bytes source) start = false) :
    readTagEnd? source offset =
      (readName? source start).bind fun
        | none => .ok (some ⟨[], false, behindTag (bytes source) start⟩)
        | some (name, behind) =>
            let sign := skipWhile isAsciiBlank (bytes source) behind
            if looksAt '=' (bytes source) sign then
              (readValue source (skipWhile isAsciiBlank (bytes source) (sign + 1))).bind
                fun read => (readTagEnd? source read.2).map (Option.map (.cons name read.1))
            else (readTagEnd? source sign).map (Option.map (.cons name "")) := by
  subst blanks
  rw [readTagEnd?]
  dsimp only
  rw [dif_pos within, if_neg (Bool.eq_false_iff.1 noClose), if_neg (Bool.eq_false_iff.1 noSlash)]
  split
  · next slipped => rw [slipped]; rfl
  · next noName => rw [noName]; rfl
  · next named =>
    rw [named]
    simp only [Except.bind]
    split
    · split
      · next slipped => rw [slipped]
      · next read => rw [read]
    · rfl

/-- The attributes of a tag are read in place as in the text. -/
theorem readTagEnd?_placeOf (suffix : cs <:+ source.toList) :
    readTagEnd? source (placeOf source cs) =
      .ok ((Token.readTagEnd? cs).map (TagEnd.ofToken source)) := by
  fun_induction Token.readTagEnd? cs with
  | case1 cs blanks =>
      obtain ⟨start, -⟩ := start_of_skipBlanks suffix blanks
      rw [placeOf_nil] at start
      rw [readTagEnd?]
      dsimp only
      rw [start, dif_neg (Nat.lt_irrefl _), Option.map_none]
  | case2 cs rest blanks =>
      obtain ⟨start, ends⟩ := start_of_skipBlanks suffix blanks
      rw [readTagEnd?]
      dsimp only
      rw [start, dif_pos (placeOf_lt ends), if_pos (looksAt_placeOf (by decide) ends),
        ← placeOf_cons (by decide) ends]
      rfl
  | case3 cs rest blanks behind slash =>
      obtain ⟨start, ends⟩ := start_of_skipBlanks suffix blanks
      obtain ⟨close, closes⟩ :=
        start_of_skipBlanks ((List.suffix_cons '/' rest).trans ends) slash
      have noClose := looksAt_placeOf_eq_false (c := '>') (by decide) ends (by simp)
      rw [readTagEnd?]
      dsimp only
      rw [start, dif_pos (placeOf_lt ends), if_neg (Bool.eq_false_iff.1 noClose),
        if_pos (looksAt_placeOf (by decide) ends), ← placeOf_cons (by decide) ends, close,
        if_pos (looksAt_placeOf (by decide) closes), ← placeOf_cons (by decide) closes]
      rfl
  | case4 cs rest blanks more ih =>
      obtain ⟨start, ends⟩ := start_of_skipBlanks suffix blanks
      obtain ⟨further, closes⟩ :=
        start_of_skipBlanks ((List.suffix_cons '/' rest).trans ends) rfl
      have noClose := looksAt_placeOf_eq_false (c := '>') (by decide) ends (by simp)
      have noClose' := looksAt_placeOf_eq_false (c := '>') (by decide) closes more
      rw [readTagEnd?]
      dsimp only
      rw [start, dif_pos (placeOf_lt ends), if_neg (Bool.eq_false_iff.1 noClose),
        if_pos (looksAt_placeOf (by decide) ends), ← placeOf_cons (by decide) ends, further,
        if_neg (Bool.eq_false_iff.1 noClose')]
      exact ih closes
  | case5 cs c rest close slash blanks noName =>
      obtain ⟨start, ends⟩ := start_of_skipBlanks suffix blanks
      rw [readTagEnd?_eq_bind start (placeOf_lt ends)
        (looksAt_placeOf_eq_false (by decide) ends (by grind))
        (looksAt_placeOf_eq_false (by decide) ends (by grind)), readName?_placeOf ends, noName,
        bytes, placeOf, behindTag_offsetOf ends]
      rfl
  | case6 cs c rest close slash blanks name behind named more sign ih =>
      obtain ⟨start, ends⟩ := start_of_skipBlanks suffix blanks
      obtain ⟨equals, signed⟩ :=
        start_of_skipBlanks ((Token.suffix_of_readName? named).trans ends) sign
      obtain ⟨place, bare⟩ :=
        start_of_skipBlanks ((List.suffix_cons '=' more).trans signed) rfl
      have value := readValue_placeOf bare
      rw [← place, placeOf_cons (by decide) signed] at value
      rw [readTagEnd?_eq_bind start (placeOf_lt ends)
        (looksAt_placeOf_eq_false (by decide) ends (by grind))
        (looksAt_placeOf_eq_false (by decide) ends (by grind)), readName?_placeOf ends, named]
      simp only [Option.map_some, Except.bind, equals, looksAt_placeOf (by decide) signed, if_true,
        value, ih ((Token.readValue_suffix _).trans bare)]
      exact map_ofToken name _ _
  | case7 cs c rest close slash blanks name behind named noSign ih =>
      obtain ⟨start, ends⟩ := start_of_skipBlanks suffix blanks
      obtain ⟨place, signed⟩ :=
        start_of_skipBlanks ((Token.suffix_of_readName? named).trans ends) rfl
      have bare := looksAt_placeOf_eq_false (by decide) signed noSign
      rw [readTagEnd?_eq_bind start (placeOf_lt ends)
        (looksAt_placeOf_eq_false (by decide) ends (by grind))
        (looksAt_placeOf_eq_false (by decide) ends (by grind)), readName?_placeOf ends, named]
      simp only [Option.map_some, Except.bind, place, bare, Bool.false_eq_true, if_false, ih signed]
      exact map_ofToken name [] _

/-- A class of ASCII characters looks at the first byte as at the first character. -/
theorem getElem?_placeOf {p : Char → Bool} (blind : Blind p) (suffix : cs <:+ source.toList) :
    ((bytes source)[placeOf source cs]?.map fun byte => p (Char.ofUInt8 byte)) =
      cs.head?.map p := by
  have here : (bytes source)[placeOf source cs]? = (bytesOf cs).head? := by
    rw [← List.head?_drop, bytes, placeOf, drop_offsetOf suffix]
  rw [here]
  cases cs with
  | nil => rfl
  | cons c rest =>
      obtain ⟨byte, more, spelled⟩ :=
        List.exists_cons_of_ne_nil (String.utf8EncodeChar_ne_nil (c := c))
      have same := blind.apply_of_mem byte (spelled ▸ List.mem_cons_self)
      rw [bytesOf_cons, spelled, List.cons_append, List.head?_cons, List.head?_cons,
        Option.map_some, Option.map_some, same]

theorem readStartTag?_placeOf (suffix : '<' :: cs <:+ source.toList) :
    readStartTag? source (placeOf source ('<' :: cs)) =
      .ok ((Token.readStartTag? cs).map fun (name, tag) => (name, TagEnd.ofToken source tag)) := by
  have inner := (List.suffix_cons '<' cs).trans suffix
  rw [readStartTag?, ← placeOf_cons (by decide) suffix, getElem?_placeOf blind_isAlpha inner,
    readName?_placeOf inner]
  cases cs with
  | nil => rfl
  | cons c more =>
      simp only [Token.readStartTag?, List.head?_cons, Option.map_some, Option.some_inj]
      split
      · cases named : Token.readName? (c :: more) with
        | none => rfl
        | some parts =>
            obtain ⟨name, rest⟩ := parts
            have ends := (Token.suffix_of_readName? named).trans inner
            simp only [Option.map_some, readTagEnd?_placeOf ends, Option.bind_eq_bind,
              Option.bind_some]
            cases Token.readTagEnd? rest with
            | none => rfl
            | some tag => rfl
      · rfl

theorem readEndTag?_placeOf (suffix : '<' :: '/' :: cs <:+ source.toList) :
    readEndTag? source (placeOf source ('<' :: '/' :: cs)) =
      .ok ((Token.readEndTag? cs).map fun (name, rest) => (name, placeOf source rest)) := by
  have slash := (List.suffix_cons '<' _).trans suffix
  obtain ⟨start, blanks⟩ := start_of_skipBlanks ((List.suffix_cons '/' cs).trans slash) rfl
  have place : placeOf source ('<' :: '/' :: cs) + 2 = placeOf source cs := by
    rw [placeOf_cons (by decide) slash, placeOf_cons (by decide) suffix]
  rw [readEndTag?, place, start, readName?_placeOf blanks, Token.readEndTag?]
  cases named : Token.readName? (skipBlanks cs) with
  | none => rfl
  | some parts =>
      obtain ⟨name, rest⟩ := parts
      have ends := (Token.suffix_of_readName? named).trans blanks
      have found := find?_offsetOf (c := '>') (by decide) ends
      have behind := behindTag_offsetOf ends
      rw [behindTag, found] at behind
      simp only [Except.map, Option.map_some, Option.bind_some, Option.bind_eq_bind, bytes,
        placeOf, found, List.contains_iff_mem]
      split
      · next present =>
        rw [if_pos present] at behind
        simp only [Option.map_some, ← behind]
      · rfl

/-- A raw run is sliced out in place. -/
theorem rawText_placeOf (suffix : run ++ rest <:+ source.toList) :
    rawText source (placeOf source (run ++ rest)) (placeOf source rest) =
      .ok (Token.rawText run) := by
  have step : placeOf source (run ++ rest) + String.utf8Len run = placeOf source rest :=
    offsetOf_add run suffix
  cases run with
  | nil =>
      rw [rawText, List.nil_append, if_neg (Nat.lt_irrefl _)]
      rfl
  | cons c more =>
      have size := c.utf8Size_pos
      rw [String.utf8Len_cons] at step
      rw [rawText, if_pos (by omega), slice_placeOf suffix]
      rfl

theorem readRaw_placeOf (raw : name ∈ rawNames) (suffix : cs <:+ source.toList) :
    readRaw name source (placeOf source cs) =
      .ok ((Token.readRaw name cs).1, placeOf source (Token.readRaw name cs).2) := by
  have closed : endTag? (bytes source) (bytesOf name.toList) (placeOf source cs) = _ :=
    endTag?_offsetOf (ascii_of_mem_rawNames raw) suffix
  rw [readRaw, closed, Token.readRaw]
  cases split : Token.splitRaw? name cs with
  | none =>
      have whole : cs ++ [] <:+ source.toList := by rwa [List.append_nil]
      have text := rawText_placeOf whole
      rw [List.append_nil, placeOf_nil] at text
      simp only [Option.map_none, text, Except.map, placeOf_nil]
  | some parts =>
      obtain ⟨body, behind⟩ := parts
      obtain ⟨closing, rfl, -, -⟩ := Token.eq_append_of_splitRaw? split
      have step := offsetOf_add body suffix
      have text := rawText_placeOf suffix
      simp only [Option.map_some, step]
      exact congrArg (Except.map _) text

/-- An element is read in place as in the text. -/
theorem readElement?_placeOf (suffix : '<' :: cs <:+ source.toList) :
    readElement? source (placeOf source ('<' :: cs)) =
      .ok ((Token.readElement? cs).map fun (tokens, rest) => (tokens, placeOf source rest)) := by
  rw [readElement?, readStartTag?_placeOf suffix, Token.readElement?]
  cases opened : Token.readStartTag? cs with
  | none => rfl
  | some parts =>
      obtain ⟨name, tag⟩ := parts
      have ends := (Token.suffix_of_readStartTag? opened).trans
        ((List.suffix_cons '<' cs).trans suffix)
      simp only [Option.map_some, TagEnd.ofToken, Option.bind_eq_bind, Option.bind_some]
      split
      · next raw =>
        rw [Bool.and_eq_true, List.contains_iff_mem] at raw
        rw [readRaw_placeOf raw.2 ends]
        rfl
      · rfl

theorem find?_succ {bytes : List UInt8} {offset : Nat} (absent : looksAt c bytes offset = false) :
    find? c bytes offset = find? c bytes (offset + 1) := by
  by_cases within : offset < bytes.length
  · have other : (Char.ofUInt8 bytes[offset] != c) = true := by
      rw [bne_iff_ne]
      rintro rfl
      rw [looksAt, List.getElem?_eq_getElem within] at absent
      simp at absent
    have same : skipWhile (· != c) bytes offset = skipWhile (· != c) bytes (offset + 1) := by
      rw [skipWhile, skipWhile, List.drop_eq_getElem_cons within, List.takeWhile_cons, if_pos other,
        List.length_cons]
      omega
    rw [find?, same, find?]
  · have first := le_skipWhile (· != c) bytes offset
    have second := le_skipWhile (· != c) bytes (offset + 1)
    rw [find?, find?, if_neg (by omega), if_neg (by omega)]

theorem readText_placeOf (suffix : c :: rest <:+ source.toList) :
    readText source (placeOf source (c :: rest)) =
      .ok ((Token.readText c rest).1, placeOf source (Token.readText c rest).2) := by
  have ends := (List.suffix_cons c rest).trans suffix
  have sign : find? '<' (bytes source) (placeOf source (c :: rest) + 1) =
      if '<' ∈ rest then some (placeOf source (rest.dropWhile (· != '<'))) else none := by
    -- the search begins behind the first byte, which is within a longer character
    by_cases opens : c = '<'
    · subst opens
      rw [← placeOf_cons (by decide) suffix]
      exact find?_offsetOf (by decide) ends
    · have absent := looksAt_placeOf_eq_false (c := '<') (by decide) suffix (by grind)
      have found := find?_offsetOf (c := '<') (by decide) suffix
      have plain : (c != '<') = true := bne_iff_ne.2 opens
      rw [List.dropWhile_cons, if_pos plain] at found
      rw [← find?_succ absent, bytes, placeOf, found]
      simp [Ne.symm opens, placeOf]
  have stop : (find? '<' (bytes source) (placeOf source (c :: rest) + 1)).getD
      (bytes source).length = placeOf source (rest.dropWhile (· != '<')) := by
    rw [sign]
    split
    · rfl
    · next absent => rw [dropWhile_ne_eq_nil_iff.2 absent, placeOf_nil, Option.getD_none]
  have whole := List.takeWhile_append_dropWhile (p := (· != '<')) (l := rest)
  have parts : (c :: rest.takeWhile (· != '<')) ++ rest.dropWhile (· != '<') <:+ source.toList := by
    rwa [List.cons_append, whole]
  have sliced := slice_placeOf parts
  rw [List.cons_append, whole] at sliced
  rw [readText, stop, sliced]
  simp only [Except.map, String.toList_ofList]
  rfl

/-! ## Calls for a token -/

section Words

variable {word : List Char}

theorem startsWith_placeOf (ascii : ∀ c ∈ word, c.toNat < 128) (suffix : cs <:+ source.toList)
    (whole : cs = word ++ rest) :
    startsWith word (bytes source) (placeOf source cs) = true := by
  have here : startsWith word (bytes source) (placeOf source cs) = _ :=
    startsWith_offsetOf ascii suffix
  rw [here, whole, List.isPrefixOf_iff_prefix]
  exact List.prefix_append word rest

theorem startsWith_placeOf_eq_false (ascii : ∀ c ∈ word, c.toNat < 128)
    (suffix : cs <:+ source.toList) (other : ∀ rest, cs = word ++ rest → False) :
    startsWith word (bytes source) (placeOf source cs) = false := by
  have here : startsWith word (bytes source) (placeOf source cs) = _ :=
    startsWith_offsetOf ascii suffix
  rw [here, Bool.eq_false_iff, ne_eq, List.isPrefixOf_iff_prefix]
  rintro ⟨rest, same⟩
  exact other rest same.symm

/-- Behind an ASCII word the offset is further by its length. -/
theorem placeOf_append (ascii : ∀ c ∈ word, c.toNat < 128) (suffix : cs <:+ source.toList)
    (whole : cs = word ++ rest) : placeOf source cs + word.length = placeOf source rest := by
  subst whole
  rw [← utf8Len_of_ascii ascii]
  exact offsetOf_add word suffix

end Words

/-- A comment is passed over. -/
theorem passOver?_comment (suffix : '<' :: '!' :: '-' :: '-' :: cs <:+ source.toList) :
    passOver? (bytes source) (placeOf source ('<' :: '!' :: '-' :: '-' :: cs)) =
      .ok (some (placeOf source (Token.behindComment cs))) := by
  have word : ∀ c ∈ ['<', '!', '-', '-'], c.toNat < 128 := by simp
  have place := placeOf_append word suffix rfl
  have inner := (List.suffix_append ['<', '!', '-', '-'] cs).trans suffix
  rw [passOver?, if_pos (startsWith_placeOf word suffix rfl)]
  exact congrArg (Except.map some) (place ▸ behindComment_placeOf inner)

/-- A declaration or an instruction is passed over. -/
theorem passOver?_declaration {mark : Char} (declares : mark = '!' ∨ mark = '?')
    (noComment : ∀ more, '<' :: mark :: cs = '<' :: '!' :: '-' :: '-' :: more → False)
    (suffix : '<' :: mark :: cs <:+ source.toList) :
    passOver? (bytes source) (placeOf source ('<' :: mark :: cs)) =
      .ok (some (placeOf source (Token.behindTag cs))) := by
  have word : ∀ c ∈ ['<', mark], c.toNat < 128 := by
    rcases declares with rfl | rfl <;> simp
  have place := placeOf_append word suffix rfl
  have inner := (List.suffix_append ['<', mark] cs).trans suffix
  have here := startsWith_placeOf word suffix rfl
  have starts : (startsWith ['<', '!'] (bytes source) (placeOf source ('<' :: mark :: cs)) ||
      startsWith ['<', '?'] (bytes source) (placeOf source ('<' :: mark :: cs))) = true := by
    rcases declares with rfl | rfl
    · rw [here, Bool.true_or]
    · rw [here, Bool.or_true]
  rw [passOver?, startsWith_placeOf_eq_false (by simp) suffix noComment,
    if_neg Bool.false_ne_true, if_pos starts]
  exact congrArg (Except.ok ∘ some) (place ▸ behindTag_offsetOf inner)

/-- Nothing is passed over where neither a comment nor a declaration begins. -/
theorem passOver?_eq_none (suffix : cs <:+ source.toList)
    (noDeclaration : ∀ more, cs = '<' :: '!' :: more → False)
    (noInstruction : ∀ more, cs = '<' :: '?' :: more → False) :
    passOver? (bytes source) (placeOf source cs) = .ok none := by
  have noComment (more : List Char) (same : cs = '<' :: '!' :: '-' :: '-' :: more) : False :=
    noDeclaration _ same
  rw [passOver?, startsWith_placeOf_eq_false (by simp) suffix noComment,
    startsWith_placeOf_eq_false (by simp) suffix noDeclaration,
    startsWith_placeOf_eq_false (by simp) suffix noInstruction]
  rfl

/-- A step of the scanner is made in place: a comment or a declaration is passed over, or
tokens are read. -/
inductive Steps (source : String) (cs : List Char) : List Token × List Char → Prop
  /-- A comment or a declaration is passed over. -/
  | passes {behind : List Char}
      (passed : passOver? (bytes source) (placeOf source cs) =
        .ok (some (placeOf source behind))) : Steps source cs ([], behind)
  /-- Tokens are read. -/
  | reads {found : List Token} {behind : List Char}
      (remains : passOver? (bytes source) (placeOf source cs) = .ok none)
      (read : readTokens source (placeOf source cs) = .ok (found, placeOf source behind)) :
      Steps source cs (found, behind)

/-- Reading a text is a step. -/
theorem steps_readText (suffix : c :: rest <:+ source.toList)
    (remains : passOver? (bytes source) (placeOf source (c :: rest)) = .ok none)
    (read : readTokens source (placeOf source (c :: rest)) =
      readText source (placeOf source (c :: rest))) :
    Steps source (c :: rest) (Token.readText c rest) :=
  .reads remains (read.trans (readText_placeOf suffix))

/-- Every step of the scanner is made in place. -/
theorem steps_next (suffix : c :: rest <:+ source.toList) :
    Steps source (c :: rest) (Token.next c rest) := by
  fun_cases Token.next c rest with
  | case1 sign more =>
      subst sign
      exact .passes (passOver?_comment suffix)
  | case2 sign more noComment =>
      subst sign
      exact .passes (passOver?_declaration (.inl rfl) (by grind) suffix)
  | case3 sign more =>
      subst sign
      exact .passes (passOver?_declaration (.inr rfl) (by grind) suffix)
  | case4 sign more name behind closed =>
      subst sign
      refine .reads (passOver?_eq_none suffix (by simp) (by simp)) ?_
      rw [readTokens, if_pos (startsWith_placeOf (by simp) suffix rfl),
        readEndTag?_placeOf suffix, closed]
      rfl
  | case5 sign more unclosed =>
      subst sign
      refine steps_readText suffix (passOver?_eq_none suffix (by simp) (by simp)) ?_
      rw [readTokens, if_pos (startsWith_placeOf (by simp) suffix rfl),
        readEndTag?_placeOf suffix, unclosed]
      rfl
  | case6 _ sign noComment noDeclaration noInstruction noFinish =>
      subst sign
      have remains := passOver?_eq_none suffix (by grind) (by grind)
      have noFinish' : ∀ more, '<' :: rest = ['<', '/'] ++ more → False := by grind
      cases opened : Token.readElement? rest with
      | none =>
          refine steps_readText suffix remains ?_
          rw [readTokens, startsWith_placeOf_eq_false (by simp) suffix noFinish',
            if_neg Bool.false_ne_true, if_pos (looksAt_placeOf (by decide) suffix),
            readElement?_placeOf suffix, opened]
          rfl
      | some parts =>
          obtain ⟨found, behind⟩ := parts
          refine .reads remains ?_
          rw [readTokens, startsWith_placeOf_eq_false (by simp) suffix noFinish',
            if_neg Bool.false_ne_true, if_pos (looksAt_placeOf (by decide) suffix),
            readElement?_placeOf suffix, opened]
          rfl
  | case7 _ plain =>
      have noTag : ∀ more, c :: rest = '<' :: more → False := by grind
      have noFinish : ∀ more, c :: rest = ['<', '/'] ++ more → False := by grind
      refine steps_readText suffix (passOver?_eq_none suffix (by grind) (by grind)) ?_
      rw [readTokens, startsWith_placeOf_eq_false (by simp) suffix noFinish,
        if_neg Bool.false_ne_true, looksAt_placeOf_eq_false (by decide) suffix noTag,
        if_neg Bool.false_ne_true]

section Calls

variable {offset stop : Nat}

/-- A call goes on where something has been passed over. -/
theorem next_of_passOver? (within : offset < (bytes source).length)
    (passed : passOver? (bytes source) offset = .ok (some stop)) :
    next source offset = next source stop := by
  rw [next, dif_pos within]
  split
  · next slipped => rw [passed] at slipped; cases slipped
  · next passed' => rw [passed] at passed'; cases passed'; rfl
  · next remains => rw [passed] at remains; cases remains

/-- A call reads tokens where nothing is passed over. -/
theorem next_eq_readTokens (within : offset < (bytes source).length)
    (remains : passOver? (bytes source) offset = .ok none) :
    next source offset = readTokens source offset := by
  rw [next, dif_pos within]
  split
  · next slipped => rw [remains] at slipped; cases slipped
  · next passed => rw [remains] at passed; cases passed
  · rfl

end Calls

theorem next_suffix (c : Char) (rest : List Char) : (Token.next c rest).2 <:+ c :: rest := by
  have cuts := Segment.cuts_read c rest
  rw [cuts.step_eq]
  exact ⟨_, cuts.source_append⟩

/-- A call gives the tokens of one step of the scanner, behind the steps that pass something
over. -/
theorem next_placeOf (suffix : cs <:+ source.toList) :
    ∃ found behind, next source (placeOf source cs) = .ok (found, placeOf source behind) ∧
      behind <:+ source.toList ∧ Token.scan cs = found ++ Token.scan behind := by
  fun_induction Token.scan cs with
  | case1 =>
      refine ⟨[], [], ?_, suffix, Token.scan_nil.symm⟩
      rw [next, placeOf_nil, dif_neg (Nat.lt_irrefl _)]
  | case2 c rest step ih =>
      have ends := (next_suffix c rest).trans suffix
      have steps := steps_next suffix
      rcases same : Token.next c rest with ⟨found, behind⟩
      simp only [step, same] at ends steps ih ⊢
      cases steps with
      | passes passed =>
          rw [next_of_passOver? (placeOf_lt suffix) passed]
          exact ih ends
      | reads remains read =>
          rw [next_eq_readTokens (placeOf_lt suffix) remains]
          exact ⟨found, behind, read, ends, rfl⟩

/-- All calls together give the tokens of the text. -/
theorem tokens_placeOf {offset : Nat} (suffix : cs <:+ source.toList)
    (place : offset = placeOf source cs) : tokens source offset = .ok (Token.scan cs) := by
  obtain ⟨found, behind, read, ends, whole⟩ := next_placeOf suffix
  rw [← place] at read
  fun_induction tokens source offset generalizing cs found behind with
  | case1 offset slip slipped =>
      rw [slipped] at read
      cases read
  | case2 offset stop called =>
      rw [called] at read
      obtain ⟨rfl, rfl⟩ := Prod.mk.inj (Except.ok.inj read)
      have bound := eq_length_of_next_nil (place ▸ offsetOf_le cs) called
      rw [whole, eq_nil_of_placeOf ends bound]
      exact congrArg Except.ok Token.scan_nil.symm
  | case3 offset token more stop called ih =>
      rw [called] at read
      obtain ⟨rfl, rfl⟩ := Prod.mk.inj (Except.ok.inj read)
      obtain ⟨found, behind', read', ends', whole'⟩ := next_placeOf ends
      rw [ih ends rfl found behind' read' ends' whole', whole]
      rfl

end Cursor
end Markup
end Pagelet
