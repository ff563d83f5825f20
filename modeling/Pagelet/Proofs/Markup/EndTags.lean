import Mathlib
import Pagelet.Proofs.Markup.Bytes
import Pagelet.Proofs.Markup.Segments
import Pagelet.Proofs.Text.Numerals

/-!
# End tags of raw elements

The search for the end of a raw body finds the first end tag of the element's name: no
candidate that it turns down is one, and where too few bytes are left for the name there
is none behind either.
-/

namespace Pagelet
namespace Markup
namespace Cursor

open Text (isAsciiBlank)

variable {c : Char} {p : Char → Bool} {bytes name : List UInt8} {offset place stop : Nat}

theorem drop_skipWhile :
    bytes.drop (skipWhile p bytes offset) =
      (bytes.drop offset).dropWhile fun byte => p (Char.ofUInt8 byte) := by
  let rest := bytes.drop offset
  let holds (byte : UInt8) := p (Char.ofUInt8 byte)
  calc
    bytes.drop (skipWhile p bytes offset) = rest.drop (rest.takeWhile holds).length :=
      List.drop_drop.symm
    _ = (rest.takeWhile holds ++ rest.dropWhile holds).drop (rest.takeWhile holds).length := by
      rw [List.takeWhile_append_dropWhile]
    _ = rest.dropWhile holds := List.drop_left

/-- A run over bytes with the property ends where they end. -/
theorem skipWhile_of_drop {run behind : List UInt8} (whole : bytes.drop offset = run ++ behind)
    (inside : ∀ byte ∈ run, p (Char.ofUInt8 byte) = true)
    (ends : ∀ byte ∈ behind.head?, p (Char.ofUInt8 byte) = false) :
    skipWhile p bytes offset = offset + run.length := by
  rw [skipWhile, whole, takeWhile_append_stop inside ends]

theorem toUInt8_ofUInt8 (byte : UInt8) : (Char.ofUInt8 byte).toUInt8 = byte := by
  simp [Char.ofUInt8, Char.toUInt8]

/-- A mark is seen where the bytes go on with it. -/
theorem looksAt_iff (ascii : c.toNat < 128) :
    looksAt c bytes offset = true ↔ ∃ behind, bytes.drop offset = c.toUInt8 :: behind := by
  rw [looksAt, ← List.head?_drop, beq_iff_eq, Option.map_eq_some_iff]
  constructor
  · rintro ⟨byte, here, rfl⟩
    rw [toUInt8_ofUInt8]
    exact List.head?_eq_some_iff.1 here
  · rintro ⟨behind, here⟩
    exact ⟨c.toUInt8, by rw [here, List.head?_cons], ofUInt8_toUInt8 ascii⟩

/-- A run to the next of a character holds none. -/
theorem looksAt_of_lt_skipWhile {k : Nat} (start : offset ≤ k)
    (before : k < skipWhile (· != c) bytes offset) : looksAt c bytes k = false := by
  obtain ⟨further, rfl⟩ := Nat.exists_eq_add_of_le start
  let run := (bytes.drop offset).takeWhile fun byte => Char.ofUInt8 byte != c
  have inside : further < run.length := Nat.lt_of_add_lt_add_left before
  have here : bytes[offset + further]? = some run[further] := by
    have whole := List.takeWhile_append_dropWhile (p := fun byte => Char.ofUInt8 byte != c)
      (l := bytes.drop offset)
    rw [← List.getElem?_drop, ← whole, List.getElem?_append_left inside,
      List.getElem?_eq_getElem inside]
  have distinct : (Char.ofUInt8 run[further] != c) = true :=
    List.mem_takeWhile_imp (p := fun byte => Char.ofUInt8 byte != c) (List.getElem_mem inside)
  rw [looksAt, here, Option.map_some]
  simpa using distinct

/-- A mark that is found is the first one. -/
theorem looksAt_of_find? (found : find? c bytes offset = some place) :
    looksAt c bytes place = true ∧
      ∀ k, offset ≤ k → k < place → looksAt c bytes k = false := by
  obtain ⟨within, same⟩ := Option.ite_none_right_eq_some.1 found
  obtain rfl := Option.some.inj same
  refine ⟨?_, fun k start before => looksAt_of_lt_skipWhile start before⟩
  have rest := List.head?_dropWhile_not (fun byte => Char.ofUInt8 byte != c) (bytes.drop offset)
  rw [← drop_skipWhile (p := (· != c)), List.head?_drop, List.getElem?_eq_getElem within] at rest
  rw [looksAt, List.getElem?_eq_getElem within]
  simpa using rest

/-- Where none is found, there is none. -/
theorem looksAt_of_find?_eq_none (absent : find? c bytes offset = none) :
    ∀ k, offset ≤ k → looksAt c bytes k = false := by
  intro k start
  by_cases within : k < bytes.length
  · have beyond : bytes.length ≤ skipWhile (· != c) bytes offset := by
      simpa [find?] using absent
    exact looksAt_of_lt_skipWhile start (Nat.lt_of_lt_of_le within beyond)
  · rw [looksAt, List.getElem?_eq_none (Nat.le_of_not_lt within)]
    rfl

/-- The bytes from `place` up to `stop` are an end tag: `</`, the name in any case of its
ASCII letters, any ASCII blanks, and `>`. -/
def EndTagAt (bytes name : List UInt8) (place stop : Nat) : Prop :=
  ∃ spelling blanks behind,
    bytes.drop place =
      '<'.toUInt8 :: '/'.toUInt8 :: (spelling ++ (blanks ++ '>'.toUInt8 :: behind)) ∧
    foldCase spelling = foldCase name ∧
    (∀ byte ∈ blanks, isAsciiBlank (Char.ofUInt8 byte) = true) ∧
    stop = place + (2 + spelling.length + blanks.length + 1)

/-- An end tag is what the search tests a `<` for. -/
theorem endTagAt_iff :
    EndTagAt bytes name place stop ↔
      looksAt '<' bytes place = true ∧ looksAt '/' bytes (place + 1) = true ∧
        place + 2 + name.length ≤ bytes.length ∧
        foldCase ((bytes.drop (place + 2)).take name.length) = foldCase name ∧
        looksAt '>' bytes (skipWhile isAsciiBlank bytes (place + 2 + name.length)) = true ∧
        stop = skipWhile isAsciiBlank bytes (place + 2 + name.length) + 1 := by
  rw [looksAt_iff (by decide), looksAt_iff (by decide), looksAt_iff (by decide)]
  constructor
  · rintro ⟨spelling, blanks, behind, whole, same, blank, rfl⟩
    have size : name.length = spelling.length := by
      have sizes := congrArg List.length same
      rw [foldCase, foldCase, List.length_map, List.length_map] at sizes
      exact sizes.symm
    have second : bytes.drop (place + 1) =
        '/'.toUInt8 :: (spelling ++ (blanks ++ '>'.toUInt8 :: behind)) := by
      rw [← List.drop_drop, whole]
      rfl
    have third : bytes.drop (place + 2) = spelling ++ (blanks ++ '>'.toUInt8 :: behind) := by
      rw [← List.drop_drop, whole]
      rfl
    have fourth : bytes.drop (place + 2 + name.length) = blanks ++ '>'.toUInt8 :: behind := by
      rw [← List.drop_drop, third, size, List.drop_left]
    have run : skipWhile isAsciiBlank bytes (place + 2 + name.length) =
        place + 2 + name.length + blanks.length :=
      skipWhile_of_drop fourth blank (by simp; decide)
    have sign : bytes.drop (place + 2 + name.length + blanks.length) = '>'.toUInt8 :: behind := by
      rw [← List.drop_drop, fourth, List.drop_left]
    have total := congrArg List.length third
    rw [List.length_drop, List.length_append, List.length_append, List.length_cons] at total
    refine ⟨⟨_, whole⟩, ⟨_, second⟩, by omega, ?_, ⟨behind, by rw [run, sign]⟩, by omega⟩
    rw [third, size, List.take_left, same]
  · rintro ⟨⟨first, begins⟩, ⟨second, slash⟩, within, same, ⟨behind, sign⟩, rfl⟩
    let rest := bytes.drop (place + 2)
    let blanks := (rest.drop name.length).takeWhile fun byte => isAsciiBlank (Char.ofUInt8 byte)
    have ends : (rest.drop name.length).dropWhile (fun byte => isAsciiBlank (Char.ofUInt8 byte)) =
        '>'.toUInt8 :: behind := by
      rw [List.drop_drop, ← drop_skipWhile, sign]
    have third : second = rest := by
      have step : bytes.drop (place + 1 + 1) = second := by rw [← List.drop_drop, slash]; rfl
      exact step.symm
    have next : first = '/'.toUInt8 :: second := by
      rw [← slash, ← List.drop_drop, begins]
      rfl
    refine ⟨rest.take name.length, blanks, behind, ?_, same, ?_, ?_⟩
    · calc
        bytes.drop place = '<'.toUInt8 :: '/'.toUInt8 :: rest := by rw [begins, next, third]
        _ = '<'.toUInt8 :: '/'.toUInt8 :: (rest.take name.length ++ rest.drop name.length) := by
          rw [List.take_append_drop]
        _ = _ := by rw [← ends, List.takeWhile_append_dropWhile]
    · exact fun byte member => List.mem_takeWhile_imp
        (p := fun byte => isAsciiBlank (Char.ofUInt8 byte)) member
    · have size : (rest.take name.length).length = name.length := by
        rw [List.length_take, List.length_drop]
        omega
      have run : skipWhile isAsciiBlank bytes (place + 2 + name.length) =
          place + 2 + name.length + blanks.length := by
        rw [skipWhile, ← List.drop_drop]
      rw [run, size]
      omega

theorem EndTagAt.looksAt (tag : EndTagAt bytes name place stop) :
    looksAt '<' bytes place = true :=
  (endTagAt_iff.1 tag).1

/-- One place is the beginning of at most one end tag. -/
theorem EndTagAt.unique {other : Nat} (tag : EndTagAt bytes name place stop)
    (tagToo : EndTagAt bytes name place other) : stop = other := by
  obtain ⟨-, -, -, -, -, rfl⟩ := endTagAt_iff.1 tag
  obtain ⟨-, -, -, -, -, rfl⟩ := endTagAt_iff.1 tagToo
  rfl

/-- The answer names the first end tag from the offset on, if there is one. -/
def FirstTag (bytes name : List UInt8) (offset : Nat) : Option (Nat × Nat) → Prop
  | some (place, stop) =>
      offset ≤ place ∧ EndTagAt bytes name place stop ∧
        ∀ earlier other, offset ≤ earlier → EndTagAt bytes name earlier other → place ≤ earlier
  | none => ∀ place stop, offset ≤ place → ¬ EndTagAt bytes name place stop

/-- A search may go on behind places at which no end tag begins. -/
theorem FirstTag.of_le {next : Nat} {answer : Option (Nat × Nat)} (start : offset ≤ next)
    (passed : ∀ place stop, offset ≤ place → place < next → ¬ EndTagAt bytes name place stop)
    (first : FirstTag bytes name next answer) : FirstTag bytes name offset answer := by
  have behind {place stop : Nat} (from' : offset ≤ place)
      (tag : EndTagAt bytes name place stop) : next ≤ place :=
    Nat.le_of_not_lt fun before => passed place stop from' before tag
  cases answer with
  | none => exact fun place stop from' tag => first place stop (behind from' tag) tag
  | some answer =>
      obtain ⟨start', tag, least⟩ := first
      refine ⟨Nat.le_trans start start', tag, ?_⟩
      exact fun earlier other from' tag => least earlier other (behind from' tag) tag

/-- No end tag begins before the next `<`. -/
theorem le_of_find? {sign : Nat} (found : find? '<' bytes offset = some sign)
    (start : offset ≤ place) (tag : EndTagAt bytes name place stop) : sign ≤ place := by
  refine Nat.le_of_not_lt fun before => ?_
  have absent := (looksAt_of_find? found).2 place start before
  simp [tag.looksAt] at absent

/-- Behind a candidate that is no end tag the search goes on. -/
theorem FirstTag.of_find? {sign : Nat} {answer : Option (Nat × Nat)}
    (found : find? '<' bytes offset = some sign)
    (refused : ∀ stop, ¬ EndTagAt bytes name sign stop)
    (first : FirstTag bytes name (sign + 1) answer) : FirstTag bytes name offset answer := by
  refine first.of_le (Nat.le_succ_of_le (range_of_find? found).1) ?_
  intro place stop start before tag
  obtain rfl := Nat.le_antisymm (Nat.le_of_lt_succ before) (le_of_find? found start tag)
  exact refused stop tag

/-- The search gives the first end tag, or there is none. -/
theorem firstTag_endTag? (bytes name : List UInt8) (offset : Nat) :
    FirstTag bytes name offset (endTag? bytes name offset) := by
  fun_induction endTag? bytes name offset with
  | case1 offset found =>
      intro place stop start tag
      have absent := looksAt_of_find?_eq_none found place start
      simp [tag.looksAt] at absent
  | case2 offset sign found noSlash ih =>
      refine ih.of_find? found fun stop tag => ?_
      have slash := (endTagAt_iff.1 tag).2.1
      simp [slash] at noSlash
  | case3 offset sign found first last _ short =>
      -- an end tag further on would need even more bytes
      intro place stop start tag
      have behind := le_of_find? found start tag
      have within := (endTagAt_iff.1 tag).2.2.1
      simp only [last, first] at short
      omega
  | case4 offset sign found first last _ _ other ih =>
      exact ih.of_find? found fun stop tag => other (endTagAt_iff.1 tag).2.2.2.1
  | case5 offset sign found first last slash long same close ends =>
      simp only [Bool.not_eq_true', Bool.not_eq_false, not_lt, ne_eq, not_not]
        at slash long same
      have tag : EndTagAt bytes name sign (close + 1) :=
        endTagAt_iff.2 ⟨(looksAt_of_find? found).1, slash, long, same, ends, rfl⟩
      exact ⟨(range_of_find? found).1, tag, fun earlier other start => le_of_find? found start⟩
  | case6 offset sign found first last _ _ _ close open' ih =>
      exact ih.of_find? found fun stop tag => open' (endTagAt_iff.1 tag).2.2.2.2.1

/-- There is at most one first end tag. -/
theorem FirstTag.unique {answer other : Option (Nat × Nat)}
    (first : FirstTag bytes name offset answer) (second : FirstTag bytes name offset other) :
    answer = other := by
  match answer, other, first, second with
  | none, none, _, _ => rfl
  | none, some (_, _), none', ⟨start, tag, _⟩ => exact absurd tag (none' _ _ start)
  | some (_, _), none, ⟨start, tag, _⟩, none' => exact absurd tag (none' _ _ start)
  | some (_, _), some (_, _), ⟨start, tag, least⟩, ⟨start', tag', least'⟩ =>
      obtain rfl := Nat.le_antisymm (least _ _ start' tag') (least' _ _ start tag)
      rw [tag.unique tag']

/-- The search gives an answer exactly if this is the first end tag. -/
theorem endTag?_eq_iff {answer : Option (Nat × Nat)} :
    endTag? bytes name offset = answer ↔ FirstTag bytes name offset answer :=
  ⟨fun same => same ▸ firstTag_endTag? bytes name offset,
    fun first => (firstTag_endTag? bytes name offset).unique first⟩

/-! ## End tags in text -/

section Text

variable {source rest behind : List Char} {tag : String}

theorem bytesOf_map_ofUInt8 (ascii : ∀ byte ∈ bytes, byte.toNat < 128) :
    bytesOf (bytes.map Char.ofUInt8) = bytes := by
  induction bytes with
  | nil => rfl
  | cons byte bytes ih =>
      obtain ⟨small, others⟩ := List.forall_mem_cons.1 ascii
      rw [List.map_cons, bytesOf_cons, ih others,
        utf8EncodeChar_of_ascii (by rwa [toNat_ofUInt8]), toUInt8_ofUInt8, List.singleton_append]

theorem map_ofUInt8_bytesOf {cs : List Char} (ascii : ∀ c ∈ cs, c.toNat < 128) :
    (bytesOf cs).map Char.ofUInt8 = cs := by
  induction cs with
  | nil => rfl
  | cons c cs ih =>
      obtain ⟨small, others⟩ := List.forall_mem_cons.1 ascii
      rw [bytesOf_cons, utf8EncodeChar_of_ascii small, List.map_append, ih others]
      simp [ofUInt8_toUInt8 small]

theorem foldCase_eq_map (bytes : List UInt8) :
    foldCase bytes = (bytes.map Char.ofUInt8).map Char.toLower := by
  rw [List.map_map]
  rfl

theorem utf8Len_of_ascii {cs : List Char} (ascii : ∀ c ∈ cs, c.toNat < 128) :
    String.utf8Len cs = cs.length := by
  rw [← length_bytesOf, ← List.length_map (f := Char.ofUInt8), map_ofUInt8_bytesOf ascii]

/-- Only ASCII characters become ASCII without their case. -/
theorem ascii_of_toLower (small : c.toLower.toNat < 128) : c.toNat < 128 := by
  rw [Text.toNat_toLower] at small
  split at small <;> omega

/-- What folds to a word of small ASCII letters is ASCII. -/
theorem ascii_of_map_toLower {spelling word : List Char} (ascii : ∀ c ∈ word, c.toNat < 128)
    (same : spelling.map Char.toLower = word.map Char.toLower) :
    ∀ c ∈ spelling, c.toNat < 128 := by
  intro c member
  obtain ⟨d, inWord, lower⟩ := List.mem_map.1 (same ▸ List.mem_map_of_mem member)
  refine ascii_of_toLower (lower ▸ ?_)
  have small := ascii d inWord
  rw [Text.toNat_toLower]
  split <;> omega

theorem ascii_of_isAsciiBlank (blank : isAsciiBlank c = true) : c.toNat < 128 := by
  by_contra beyond
  simp [isAsciiBlank_of_le (Nat.le_of_not_lt beyond)] at blank

/-- The end tag with this spelling of the name and these blanks. -/
def endTagText (spelling blanks : List Char) : List Char :=
  '<' :: '/' :: (spelling ++ (blanks ++ ['>']))

theorem ascii_endTagText {spelling blanks : List Char} (small : ∀ c ∈ spelling, c.toNat < 128)
    (blank : ∀ c ∈ blanks, isAsciiBlank c = true) :
    ∀ c ∈ endTagText spelling blanks, c.toNat < 128 := by
  intro c member
  simp only [endTagText, List.mem_cons, List.mem_append, List.not_mem_nil, or_false] at member
  rcases member with rfl | rfl | inSpelling | inBlanks | rfl
  · decide
  · decide
  · exact small c inSpelling
  · exact ascii_of_isAsciiBlank (blank c inBlanks)
  · decide

/-- The end tags of a text's bytes are those of the text. -/
theorem endTagAt_offsetOf (ascii : ∀ c ∈ tag.toList, c.toNat < 128) (suffix : rest <:+ source) :
    EndTagAt (bytesOf source) (bytesOf tag.toList) (offsetOf source rest) stop ↔
      ∃ inner behind, rest = '<' :: inner ∧ Token.closeRaw? tag inner = some behind ∧
        stop = offsetOf source behind := by
  have named : foldCase (bytesOf tag.toList) = tag.toList.map Char.toLower := by
    rw [foldCase_eq_map, map_ofUInt8_bytesOf ascii]
  constructor
  · rintro ⟨spelling, blanks, behind, whole, same, blank, rfl⟩
    let letters := spelling.map Char.ofUInt8
    let spaces := blanks.map Char.ofUInt8
    have sameLetters : letters.map Char.toLower = tag.toList.map Char.toLower := by
      rw [← foldCase_eq_map, same, named]
    have small := ascii_of_map_toLower ascii sameLetters
    have blankSpaces : ∀ c ∈ spaces, isAsciiBlank c = true := List.forall_mem_map.2 blank
    have fromLetters : bytesOf letters = spelling := bytesOf_map_ofUInt8 fun byte member => by
      rw [← toNat_ofUInt8]
      exact small _ (List.mem_map_of_mem member)
    have fromSpaces : bytesOf spaces = blanks := bytesOf_map_ofUInt8 fun byte member => by
      rw [← toNat_ofUInt8]
      exact ascii_of_isAsciiBlank (blank byte member)
    have wordAscii := ascii_endTagText small blankSpaces
    have begins : bytesOf rest = bytesOf (endTagText letters spaces) ++ behind := by
      rw [← drop_offsetOf suffix, whole]
      simp [endTagText, bytesOf_append, fromLetters, fromSpaces, utf8EncodeChar_of_ascii]
    obtain ⟨after, rfl, -⟩ := exists_of_bytesOf_append wordAscii begins
    have step := offsetOf_add _ suffix
    have size := utf8Len_of_ascii wordAscii
    refine ⟨'/' :: letters ++ spaces ++ '>' :: after, after, by simp [endTagText],
      Token.closeRaw?_eq_some_iff.2 ⟨letters, spaces, rfl, sameLetters, blankSpaces⟩, ?_⟩
    simp only [endTagText, List.length_cons, List.length_append, List.length_nil, letters, spaces,
      List.length_map] at size
    rw [← step]
    simp only [endTagText, letters, spaces] at size ⊢
    omega
  · rintro ⟨inner, after, rfl, closed, rfl⟩
    obtain ⟨letters, spaces, rfl, sameLetters, blankSpaces⟩ :=
      Token.closeRaw?_eq_some_iff.1 closed
    have small := ascii_of_map_toLower ascii sameLetters
    have wordAscii := ascii_endTagText small blankSpaces
    have shape : '<' :: ('/' :: letters ++ spaces ++ '>' :: after) =
        endTagText letters spaces ++ after := by simp [endTagText]
    rw [shape] at suffix ⊢
    have step := offsetOf_add _ suffix
    refine ⟨bytesOf letters, bytesOf spaces, bytesOf after, ?_, ?_, ?_, ?_⟩
    · rw [drop_offsetOf suffix]
      simp [endTagText, bytesOf_append, utf8EncodeChar_of_ascii]
    · rw [foldCase_eq_map, map_ofUInt8_bytesOf small, sameLetters, named]
    · intro byte member
      obtain ⟨c, inSpaces, inChar⟩ := List.mem_flatMap.1 member
      rw [blind_isAsciiBlank.apply_of_mem byte inChar, blankSpaces c inSpaces]
    · rw [← step, utf8Len_of_ascii wordAscii, length_bytesOf, length_bytesOf,
        utf8Len_of_ascii small, utf8Len_of_ascii fun c member =>
          ascii_of_isAsciiBlank (blankSpaces c member)]
      simp only [endTagText, List.length_cons, List.length_append, List.length_nil]
      omega

/-- Within a character no sign of markup begins. -/
theorem looksAt_within {further : Nat} (ascii : c.toNat < 128) {d : Char}
    (suffix : d :: rest <:+ source) (positive : 0 < further) (within : further < d.utf8Size) :
    looksAt c (bytesOf source) (offsetOf source (d :: rest) + further) = false := by
  have beyond : 128 ≤ d.toNat := by
    by_contra small
    have one := congrArg List.length (utf8EncodeChar_of_ascii (Nat.lt_of_not_le small))
    rw [String.length_utf8EncodeChar, List.length_singleton] at one
    omega
  have inside : further < (String.utf8EncodeChar d).length := by
    rwa [String.length_utf8EncodeChar]
  have here : (bytesOf source)[offsetOf source (d :: rest) + further]? =
      some (String.utf8EncodeChar d)[further] := by
    rw [← List.getElem?_drop, drop_offsetOf suffix, bytesOf_cons, List.getElem?_append_left inside,
      List.getElem?_eq_getElem inside]
  have large := le_of_mem_utf8EncodeChar beyond _ (List.getElem_mem inside)
  rw [looksAt, here, Option.map_some, beq_eq_false_iff_ne, ne_eq, Option.some.injEq]
  rintro rfl
  rw [toNat_ofUInt8] at ascii
  omega

/-- The search in the bytes finds the end tag that splits the text. -/
theorem endTag?_offsetOf (ascii : ∀ c ∈ tag.toList, c.toNat < 128) (suffix : rest <:+ source) :
    endTag? (bytesOf source) (bytesOf tag.toList) (offsetOf source rest) =
      (Token.splitRaw? tag rest).map fun (body, behind) =>
        (offsetOf source rest + String.utf8Len body, offsetOf source behind) := by
  induction rest with
  | nil =>
      rw [Token.splitRaw?, Option.map_none, endTag?_eq_iff]
      intro place stop start tag
      have within := lt_of_looksAt tag.looksAt
      rw [offsetOf_nil] at start
      omega
  | cons c rest ih =>
      have ends := (List.suffix_cons c rest).trans suffix
      have step := offsetOf_cons suffix
      have here (stop : Nat) : EndTagAt (bytesOf source) (bytesOf tag.toList)
          (offsetOf source (c :: rest)) stop ↔ _ := endTagAt_offsetOf ascii suffix
      rw [Token.splitRaw?]
      split
      · next behind closed =>
        obtain ⟨rfl, closed⟩ := Option.ite_none_right_eq_some.1 closed
        rw [Option.map_some, endTag?_eq_iff]
        refine ⟨Nat.le_refl _, (here _).2 ⟨rest, behind, rfl, closed, rfl⟩, ?_⟩
        exact fun earlier other start _ => start
      · next unclosed =>
        have skips : endTag? (bytesOf source) (bytesOf tag.toList) (offsetOf source (c :: rest)) =
            endTag? (bytesOf source) (bytesOf tag.toList) (offsetOf source rest) := by
          rw [endTag?_eq_iff]
          refine .of_le (Nat.le_of_lt (by have := c.utf8Size_pos; omega)) ?_
            (firstTag_endTag? _ _ (offsetOf source rest))
          intro place stop start before closes
          obtain ⟨further, rfl⟩ := Nat.exists_eq_add_of_le start
          cases further with
          | zero =>
              obtain ⟨inner, behind, same, closed, -⟩ := (here stop).1 closes
              obtain ⟨rfl, rfl⟩ := List.cons.inj same
              simp [closed] at unclosed
          | succ further =>
              have absent := looksAt_within (c := '<') (by decide) suffix
                (Nat.succ_pos further) (by omega)
              simp [closes.looksAt] at absent
        rw [skips, ih ends, Option.map_map]
        congr 1
        funext parts
        simp only [Function.comp_apply, String.utf8Len_cons, Prod.mk.injEq, and_true]
        omega

/-- The names of raw elements are ASCII. -/
theorem ascii_of_mem_rawNames (raw : tag ∈ rawNames) : ∀ c ∈ tag.toList, c.toNat < 128 := by
  simp only [rawNames, List.mem_cons, List.not_mem_nil, or_false] at raw
  rcases raw with rfl | rfl <;> simp

end Text

/-- The search for an end tag is exact in any bytes, for any name and from any offset: it
gives the least place from there on at which an end tag of the name begins, together with
the place right behind its `>`, and it gives nothing only if there is no such place.  The
raw elements of a text are cut at the places that the search gives in the text's bytes. -/
theorem endTag?_exact (bytes name : List UInt8) (start : Nat) :
    (∀ place stop, endTag? bytes name start = some (place, stop) ↔
      start ≤ place ∧ EndTagAt bytes name place stop ∧
        ∀ earlier other, start ≤ earlier → EndTagAt bytes name earlier other →
          place ≤ earlier) ∧
    (endTag? bytes name start = none ↔
      ∀ place stop, start ≤ place → ¬ EndTagAt bytes name place stop) ∧
    ∀ (source : List Char) (tag : String), tag ∈ rawNames →
      endTag? (bytesOf source) (bytesOf tag.toList) 0 =
        (Token.splitRaw? tag source).map fun (body, behind) =>
          (String.utf8Len body, String.utf8Len source - String.utf8Len behind) := by
  refine ⟨fun place stop => endTag?_eq_iff, endTag?_eq_iff, ?_⟩
  intro source tag raw
  have cuts := endTag?_offsetOf (ascii_of_mem_rawNames raw) (List.suffix_refl source)
  have zero : offsetOf source source = 0 := Nat.sub_self _
  simp only [zero, Nat.zero_add] at cuts
  exact cuts

end Cursor
end Markup
end Pagelet
