import Pagelet.Markup.Token.Raw

/-!
# Cutting markup into tokens

Every step reads what begins at one character and leaves a shorter text, so the
whole of any text is read.  Comments and declarations are passed over, and a `<`
that begins no tag is text up to the next one.
-/

namespace Pagelet
namespace Markup
namespace Token

/-- A run of text that begins with `c` and ends before the next `<`. -/
def readText (c : Char) (rest : List Char) : List Token × List Char :=
  let run := c :: rest.takeWhile (· != '<')
  ([text (String.ofList (Reference.decode run))], rest.dropWhile (· != '<'))

/-- Reads a start tag behind its `<`, together with a raw body if it has one. -/
def readElement? (cs : List Char) : Option (List Token × List Char) := do
  let (name, tag) ← readStartTag? cs
  let token := start name tag.attributes tag.selfClosing
  if !tag.selfClosing && rawNames.contains name then
    let (tokens, behind) := readRaw name tag.behind
    some (token :: tokens, behind)
  else some ([token], tag.behind)

/-- Reads what begins with the character `c`: the tokens found, and the rest. -/
def next (c : Char) (rest : List Char) : List Token × List Char :=
  if c = '<' then
    match rest with
    | '!' :: '-' :: '-' :: more => ([], behindComment more)
    | '!' :: more => ([], behindTag more)
    | '?' :: more => ([], behindTag more)
    | '/' :: more =>
        match readEndTag? more with
        | some (name, behind) => ([finish name], behind)
        | none => readText c rest
    | _ => (readElement? rest).getD (readText c rest)
  else readText c rest

theorem length_le_of_readTagEnd? {cs : List Char} {tag : TagEnd}
    (h : readTagEnd? cs = some tag) : tag.behind.length ≤ cs.length := by
  fun_induction readTagEnd? cs generalizing tag with
  | case1 => simp at h
  | case2 cs rest blanks =>
      have first := length_skipBlanks_le cs
      simp only [blanks, List.length_cons] at first
      simp only [Option.some.injEq] at h
      simp only [← h]
      omega
  | case3 cs rest blanks behind slash =>
      have first := length_skipBlanks_le cs
      have second := length_skipBlanks_le rest
      simp only [blanks, slash, List.length_cons] at first second
      simp only [Option.some.injEq] at h
      simp only [← h]
      omega
  | case4 cs rest blanks _ ih =>
      have first := length_skipBlanks_le cs
      have second := length_skipBlanks_le rest
      have third := ih h
      simp only [blanks, List.length_cons] at first
      omega
  | case5 cs c rest _ _ blanks =>
      have first := length_skipBlanks_le cs
      have second := length_behindTag_le (c :: rest)
      rw [blanks] at first
      simp only [Option.some.injEq] at h
      simp only [← h]
      omega
  | case6 cs c rest _ _ blanks name behind named more sign ih =>
      obtain ⟨inner, found, rfl⟩ := Option.map_eq_some_iff.1 h
      have first := length_skipBlanks_le cs
      have second := length_lt_of_readName? named
      have third := length_skipBlanks_le behind
      have fourth := length_skipBlanks_le more
      have fifth := length_readValue_le (skipBlanks more)
      have last := ih found
      simp only [blanks, sign, List.length_cons] at first second third
      simp only [TagEnd.cons]
      omega
  | case7 cs c rest _ _ blanks name behind named _ ih =>
      obtain ⟨inner, found, rfl⟩ := Option.map_eq_some_iff.1 h
      have first := length_skipBlanks_le cs
      have second := length_lt_of_readName? named
      have third := length_skipBlanks_le behind
      have last := ih found
      simp only [blanks, List.length_cons] at first second
      simp only [TagEnd.cons]
      omega

theorem length_le_of_splitRaw? {name : String} {cs body behind : List Char}
    (h : splitRaw? name cs = some (body, behind)) : behind.length ≤ cs.length := by
  induction cs generalizing body with
  | nil => simp [splitRaw?] at h
  | cons c rest ih =>
      rw [splitRaw?] at h
      split at h
      · next closing =>
        simp only [Option.some.injEq, Prod.mk.injEq] at h
        obtain ⟨-, rfl⟩ := h
        have := length_le_of_closeRaw? (Option.ite_none_right_eq_some.1 closing).2
        simp only [List.length_cons]
        omega
      · obtain ⟨⟨front, back⟩, found, parts⟩ := Option.map_eq_some_iff.1 h
        simp only [Prod.mk.injEq] at parts
        obtain ⟨-, rfl⟩ := parts
        have := ih found
        simp only [List.length_cons]
        omega

theorem length_readRaw_le (name : String) (cs : List Char) :
    (readRaw name cs).2.length ≤ cs.length := by
  unfold readRaw
  split
  · next found => exact length_le_of_splitRaw? found
  · simp

theorem length_le_of_readElement? {cs behind : List Char} {tokens : List Token}
    (h : readElement? cs = some (tokens, behind)) : behind.length ≤ cs.length := by
  unfold readElement? readStartTag? at h
  cases cs with
  | nil => simp at h
  | cons c rest =>
      simp only at h
      split at h
      · cases named : readName? (c :: rest) with
        | none => simp [named] at h
        | some parts =>
            obtain ⟨name, more⟩ := parts
            cases closed : readTagEnd? more with
            | none => simp [named, closed] at h
            | some tag =>
                have first := length_lt_of_readName? named
                have second := length_le_of_readTagEnd? closed
                have third := length_readRaw_le name tag.behind
                simp only [named, closed, Option.bind_eq_bind, Option.bind_some] at h
                split at h
                all_goals
                  simp only [Option.some.injEq, Prod.mk.injEq] at h
                  rw [← h.2]
                  omega
      · simp at h

/-- Every step leaves a text that is no longer than the one behind its first
character. -/
theorem length_next_le (c : Char) (rest : List Char) :
    (next c rest).2.length ≤ rest.length := by
  have run : (readText c rest).2.length ≤ rest.length :=
    (List.dropWhile_suffix _).length_le
  unfold next
  split
  · split
    · have := length_behindComment_le ‹List Char›
      simp only [List.length_cons]
      omega
    · have := length_behindTag_le ‹List Char›
      simp only [List.length_cons]
      omega
    · have := length_behindTag_le ‹List Char›
      simp only [List.length_cons]
      omega
    · split
      · next found =>
        have := length_le_of_readEndTag? found
        simp only [List.length_cons]
        omega
      · exact run
    · cases found : readElement? rest with
      | none => simpa [found] using run
      | some parts =>
          obtain ⟨tokens, behind⟩ := parts
          simpa [found] using length_le_of_readElement? found
  · exact run

/-- The tokens of a text, in source order. -/
def scan : List Char → List Token
  | [] => []
  | c :: rest =>
      let step := next c rest
      step.1 ++ scan step.2
termination_by cs => cs.length
decreasing_by
  have := length_next_le c rest
  simp only [List.length_cons]
  omega

/-- The tokens of a page's markup. -/
def ofMarkup (markup : String) : List Token :=
  scan markup.toList

end Token
end Markup
end Pagelet
