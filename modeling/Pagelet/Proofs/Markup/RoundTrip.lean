import Pagelet.Proofs.Markup.Reading

/-!
# Reading what was written

The text of a well-formed list of tokens is cut back into that list.  One step of the
scanner reads one written token, or a raw element whole; the induction is on the number
of tokens.
-/

namespace Pagelet
namespace Markup
namespace Token

variable {name : String} {attributes : Attributes} {tokens : List Token} {cs : List Char}

theorem scan_nil : scan [] = [] :=
  scan.eq_1

theorem scan_cons (c : Char) (rest : List Char) :
    scan (c :: rest) = (next c rest).1 ++ scan (next c rest).2 :=
  scan.eq_2 c rest

theorem next_of_ne {c : Char} (plain : c ≠ '<') (rest : List Char) :
    next c rest = readText c rest := by
  unfold next
  rw [if_neg plain]

/-- A letter behind a `<` begins a start tag. -/
theorem next_of_isAlpha {c : Char} (letter : c.isAlpha = true) (rest : List Char) :
    next '<' (c :: rest) = (readElement? (c :: rest)).getD (readText '<' (c :: rest)) := by
  unfold next
  rw [if_pos rfl]
  split
  · next same => exact absurd letter ((List.cons.inj same).1 ▸ by decide)
  · next same => exact absurd letter ((List.cons.inj same).1 ▸ by decide)
  · next same => exact absurd letter ((List.cons.inj same).1 ▸ by decide)
  · next same => exact absurd letter ((List.cons.inj same).1 ▸ by decide)
  · rfl

/-- A run of text is read up to the next `<`. -/
theorem scan_text (notEmpty : cs ≠ []) (plain : '<' ∉ cs) {rest : List Char}
    (stop : ∀ c ∈ rest.head?, c = '<') :
    scan (cs ++ rest) = text (String.ofList (Reference.decode cs)) :: scan rest := by
  obtain ⟨c, more, rfl⟩ := List.exists_cons_of_ne_nil notEmpty
  rw [List.mem_cons, not_or] at plain
  have inside := ne_of_not_mem plain.2
  have ends : ∀ c ∈ rest.head?, (c != '<') = false := fun c member => by simp [stop c member]
  rw [List.cons_append, scan_cons, next_of_ne (Ne.symm plain.1), readText,
    takeWhile_append_stop inside ends, dropWhile_append_stop inside ends]
  rfl

/-- An end tag is read whole. -/
theorem scan_finish (isName : IsName name) (rest : List Char) :
    scan (finishText name ++ rest) = finish name :: scan rest := by
  have read : next '<' ('/' :: (name.toList ++ '>' :: rest)) = ([finish name], rest) := by
    simp [next, readEndTag?_append isName]
  have shape : finishText name ++ rest = '<' :: '/' :: (name.toList ++ '>' :: rest) := by
    simp [finishText]
  rw [shape, scan_cons, read]
  rfl

/-- A start tag is read whole, together with the raw body behind it if there is one. -/
theorem scan_start (isTagName : IsTagName name) (named : attributes.Named) (selfClosing : Bool)
    (rest : List Char) :
    scan (startText name attributes selfClosing ++ rest) =
      start name attributes selfClosing ::
        if (start name attributes selfClosing).opensRaw then
          (readRaw name rest).1 ++ scan (readRaw name rest).2
        else scan rest := by
  let written := name.toList ++
    (attributes.flatMap attributeText ++ closingText selfClosing ++ rest)
  have shape : startText name attributes selfClosing ++ rest = '<' :: written := by
    simp [startText, written]
  obtain ⟨c, more, spelled⟩ := List.exists_cons_of_ne_nil isTagName.notEmpty
  have letter : c.isAlpha = true := isTagName.isAlpha spelled
  have begins : next '<' written = (readElement? written).getD (readText '<' written) := by
    simp only [written, spelled, List.cons_append]
    exact next_of_isAlpha letter _
  have read : readElement? written =
      if (start name attributes selfClosing).opensRaw then
        some (start name attributes selfClosing :: (readRaw name rest).1, (readRaw name rest).2)
      else some ([start name attributes selfClosing], rest) := by
    simp only [readElement?, written, readStartTag?_append isTagName named, Option.bind_eq_bind,
      Option.bind_some, opensRaw]
    rfl
  rw [shape, scan_cons, begins, read]
  split <;> rfl

/-- A text that does not begin with a run of text begins with a tag, if at all. -/
theorem head?_writeAll (noText : ∀ token ∈ tokens.head?, ¬ token.IsText) (raw : Bool) :
    ∀ c ∈ (writeAll raw tokens).head?, c = '<' := by
  cases tokens with
  | nil => simp [writeAll]
  | cons token rest =>
      cases token with
      | start name attributes selfClosing => simp [writeAll, write, startText, eq_comm]
      | finish name => simp [writeAll, write, finishText, eq_comm]
      | text content => exact absurd trivial (noText _ rfl)

/-- What stands behind the start tag of a raw element is written as it is. -/
theorem writeAll_rawText (body : List Char) (name : String) (rest : List Token) :
    writeAll true (rawText body ++ finish name :: rest) =
      body ++ finishText name ++ writeAll false rest := by
  cases body with
  | nil => rfl
  | cons c body => simp [rawText, writeAll, write, opensRaw]

/-- The text of a well-formed list of tokens is read as that list. -/
theorem scan_writeAll (writable : Writable tokens) : scan (writeAll false tokens) = tokens := by
  induction size : tokens.length using Nat.strongRecOn generalizing tokens with
  | ind size ih =>
    cases tokens with
    | nil => exact scan_nil
    | cons token rest =>
        -- a step leaves a shorter list that is well formed too
        have further {front after : List Token} (split : token :: rest = front ++ after)
            (shorter : front ≠ []) : scan (writeAll false after) = after := by
          refine ih after.length ?_ (.of_append (split ▸ writable)) rfl
          have sizes := congrArg List.length split
          have positive := List.length_pos_iff.2 shorter
          rw [List.length_append] at sizes
          omega
        cases writable.wellFormed token List.mem_cons_self with
        | @text content notEmpty =>
            let table := Reference.EscapeTable.inText
            have written : writeAll false (text content :: rest) =
                table.escape content.toList ++ writeAll false rest := rfl
            have noSign : '<' ∉ table.escape content.toList := table.not_mem_escape rfl (by decide)
            have filled : table.escape content.toList ≠ [] :=
              table.escape_ne_nil (by simpa using notEmpty)
            rw [written, scan_text filled noSign (head?_writeAll writable.noText_of_text false),
              Reference.decode_escape, String.ofList_toList, further rfl (List.cons_ne_nil _ [])]
        | @finish name isName =>
            have written : writeAll false (finish name :: rest) =
                finishText name ++ writeAll false rest := rfl
            rw [written, scan_finish isName, further rfl (List.cons_ne_nil _ [])]
        | @start name attributes isTagName named selfClosing =>
            have written (raw : Bool) :
                (start name attributes selfClosing).opensRaw = raw →
                  writeAll false (start name attributes selfClosing :: rest) =
                    startText name attributes selfClosing ++ writeAll raw rest := by
              rintro rfl
              rfl
            cases opens : (start name attributes selfClosing).opensRaw with
            | false =>
                rw [written false opens, scan_start isTagName named, opens, if_neg (by simp),
                  further rfl (List.cons_ne_nil _ [])]
            | true =>
                rw [written true opens, scan_start isTagName named, opens, if_pos rfl]
                simp only [opensRaw, Bool.and_eq_true, Bool.not_eq_true', List.contains_iff_mem]
                  at opens
                obtain ⟨rfl, raw⟩ := opens
                -- the start tag, the body and the end tag are read in one step
                obtain ⟨body, after, rfl, unclosed⟩ :=
                  writable.closed [] name attributes rest rfl raw
                have split : start name attributes false ::
                    (rawText body ++ finish name :: after) =
                      (start name attributes false :: (rawText body ++ [finish name])) ++
                        after := by
                  simp
                have behind := further split (List.cons_ne_nil _ _)
                rw [writeAll_rawText, readRaw_append isTagName.toIsName unclosed, behind]
                simp

/-- Tokenizing undoes rendering. -/
theorem ofMarkup_render (writable : Writable tokens) : ofMarkup (render tokens) = tokens := by
  rw [ofMarkup, render, String.toList_ofList, scan_writeAll writable]

/-- Tokens with every kind of special character in them, and with raw bodies that hold
unfinished end tags. -/
def sampleTokens : List Token :=
  [text "a < b &amp; c > \"d\" ", start "p" [("title", "1 < 2 & \"3\" > '"), ("x:y", "")] false,
    start "br" [("class", "/")] true, finish "-9", start "script" [("src", "a b")] false,
    text "if (a</script b && '</scri' < c) </", finish "script", start "style" [] false,
    finish "style", start "style" [] true, text "&lt;"]

theorem ofMarkup_render_sampleTokens :
    Writable sampleTokens ∧ ofMarkup (render sampleTokens) = sampleTokens := by
  have script : ClosesRaw "script" (sampleTokens.drop 5) :=
    ⟨"if (a</script b && '</scri' < c) </".toList, sampleTokens.drop 7, by decide,
      splitRaw?_eq_none_iff.1 (by decide)⟩
  have style : ClosesRaw "style" (sampleTokens.drop 8) :=
    ⟨[], sampleTokens.drop 9, rfl, splitRaw?_eq_none_iff.1 rfl⟩
  have writable : Writable sampleTokens := by
    refine .cons (.text (by decide)) rfl (by decide) ?_
    refine .cons (.start (by decide) (by decide) _) rfl (by decide) ?_
    refine .cons (.start (by decide) (by decide) _) rfl (by decide) ?_
    refine .cons (.finish (by decide)) rfl (by decide) ?_
    refine .consRaw (by decide) (by decide) script ?_
    refine .cons (.text (by decide)) rfl (by decide) ?_
    refine .cons (.finish (by decide)) rfl (by decide) ?_
    refine .consRaw (by decide) (by decide) style ?_
    refine .cons (.finish (by decide)) rfl (by decide) ?_
    refine .cons (.start (by decide) (by decide) _) rfl (by decide) ?_
    exact .cons (.text (by decide)) rfl (by decide) .nil
  exact ⟨writable, ofMarkup_render writable⟩

end Token
end Markup
end Pagelet
