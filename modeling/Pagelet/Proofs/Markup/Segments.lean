import Pagelet.Proofs.Markup.RoundTrip

/-!
# Markup cut into segments

A token does not say where in the source it comes from.  A segment does: it keeps the stretch
of source that one step of the scanner reads, and for a raw element its body apart from the
two tags around it.  The segments of a text make up the text, and their tokens are the tokens
of the text.
-/

namespace Pagelet
namespace Markup

open Token (HoldsEndTag StartsEndTag readEndTag? readStartTag? splitRaw?)

namespace Token

variable {name : String} {cs rest behind : List Char}

theorem skipBlanks_suffix (cs : List Char) : skipBlanks cs <:+ cs :=
  List.dropWhile_suffix _

theorem behindTag_suffix (cs : List Char) : behindTag cs <:+ cs :=
  (List.drop_suffix _ _).trans (List.dropWhile_suffix _)

theorem behindComment_suffix (cs : List Char) : behindComment cs <:+ cs := by
  fun_induction behindComment cs with
  | case1 => exact List.suffix_refl []
  | case2 rest => exact List.suffix_append ['-', '-', '>'] rest
  | case3 c rest _ ih => exact ih.trans (List.suffix_cons c rest)

/-- A name is read from the front of the text. -/
theorem suffix_of_readName? (read : readName? cs = some (name, rest)) : rest <:+ cs := by
  unfold readName? at read
  split at read
  · cases read
  · obtain ⟨-, rfl⟩ := Prod.mk.inj (Option.some.inj read)
    exact List.dropWhile_suffix _

theorem readValue_suffix (cs : List Char) : (readValue cs).2 <:+ cs := by
  have quoted (mark : Char) (rest : List Char) :
      (rest.dropWhile (· != mark)).drop 1 <:+ mark :: rest :=
    ((List.drop_suffix _ _).trans (List.dropWhile_suffix _)).trans (List.suffix_cons mark rest)
  unfold readValue
  split
  · exact quoted '"' _
  · exact quoted '\'' _
  · exact List.dropWhile_suffix _

theorem suffix_of_readTagEnd? {tag : TagEnd} (read : readTagEnd? cs = some tag) :
    tag.behind <:+ cs := by
  fun_induction readTagEnd? cs generalizing tag with
  | case1 => cases read
  | case2 cs rest blanks =>
      obtain rfl := Option.some.inj read
      exact (List.suffix_cons '>' rest).trans (blanks ▸ skipBlanks_suffix cs)
  | case3 cs rest blanks behind slash =>
      obtain rfl := Option.some.inj read
      have inside : '/' :: rest <:+ cs := blanks ▸ skipBlanks_suffix cs
      have ends : '>' :: behind <:+ rest := slash ▸ skipBlanks_suffix rest
      exact (List.suffix_cons '>' behind).trans
        (ends.trans ((List.suffix_cons '/' rest).trans inside))
  | case4 cs rest blanks _ ih =>
      have inside : '/' :: rest <:+ cs := blanks ▸ skipBlanks_suffix cs
      exact (ih read).trans
        ((skipBlanks_suffix rest).trans ((List.suffix_cons '/' rest).trans inside))
  | case5 cs c rest _ _ blanks =>
      obtain rfl := Option.some.inj read
      exact (behindTag_suffix (c :: rest)).trans (blanks ▸ skipBlanks_suffix cs)
  | case6 cs c rest _ _ blanks name behind named more sign ih =>
      obtain ⟨inner, found, rfl⟩ := Option.map_eq_some_iff.1 read
      have inside : c :: rest <:+ cs := blanks ▸ skipBlanks_suffix cs
      have value : '=' :: more <:+ behind := sign ▸ skipBlanks_suffix behind
      have valued : (readValue (skipBlanks more)).2 <:+ more :=
        (readValue_suffix _).trans (skipBlanks_suffix more)
      exact (ih found).trans (valued.trans ((List.suffix_cons '=' more).trans
        (value.trans ((suffix_of_readName? named).trans inside))))
  | case7 cs c rest _ _ blanks name behind named _ ih =>
      obtain ⟨inner, found, rfl⟩ := Option.map_eq_some_iff.1 read
      have inside : c :: rest <:+ cs := blanks ▸ skipBlanks_suffix cs
      exact (ih found).trans ((skipBlanks_suffix behind).trans
        ((suffix_of_readName? named).trans inside))

theorem suffix_of_readStartTag? {tag : TagEnd} (read : readStartTag? cs = some (name, tag)) :
    tag.behind <:+ cs := by
  cases cs with
  | nil => cases read
  | cons c more =>
      rw [readStartTag?] at read
      obtain ⟨-, read⟩ := Option.ite_none_right_eq_some.1 read
      obtain ⟨⟨spelled, rest⟩, named, read⟩ := Option.bind_eq_some_iff.1 read
      obtain ⟨inner, closed, same⟩ := Option.bind_eq_some_iff.1 read
      obtain ⟨-, rfl⟩ := Prod.mk.inj (Option.some.inj same)
      exact (suffix_of_readTagEnd? closed).trans (suffix_of_readName? named)

theorem suffix_of_readEndTag? (read : readEndTag? cs = some (name, behind)) : behind <:+ cs := by
  rw [readEndTag?] at read
  obtain ⟨⟨spelled, rest⟩, named, read⟩ := Option.bind_eq_some_iff.1 read
  obtain ⟨-, same⟩ := Option.ite_none_right_eq_some.1 read
  obtain ⟨-, rfl⟩ := Prod.mk.inj (Option.some.inj same)
  exact (behindTag_suffix rest).trans ((suffix_of_readName? named).trans (skipBlanks_suffix cs))

/-- The text is an end tag of the name, in any letter case and with any blanks behind the
name. -/
def IsEndTag (name : String) (cs : List Char) : Prop :=
  ∃ spelling blanks, cs = '<' :: '/' :: spelling ++ blanks ++ ['>'] ∧
    spelling.map Char.toLower = name.toList.map Char.toLower ∧
      ∀ c ∈ blanks, Text.isAsciiBlank c = true

/-- What starts with an end tag still does with more behind it. -/
theorem StartsEndTag.append (starts : StartsEndTag name cs) (more : List Char) :
    StartsEndTag name (cs ++ more) := by
  obtain ⟨spelling, blanks, behind, rfl, same, blank⟩ := starts
  exact ⟨spelling, blanks, behind ++ more, by simp, same, blank⟩

/-- A raw body with an end tag behind it is cut off at the first one. -/
theorem eq_append_of_splitRaw? {body : List Char}
    (split : splitRaw? name cs = some (body, behind)) :
    ∃ closing, cs = body ++ (closing ++ behind) ∧ IsEndTag name closing ∧
      ¬ HoldsEndTag name body := by
  induction cs generalizing body with
  | nil => cases split
  | cons c rest ih =>
      rw [splitRaw?] at split
      cases closed : (if c = '<' then closeRaw? name rest else none) with
      | some after =>
          rw [closed] at split
          obtain ⟨rfl, rfl⟩ := Prod.mk.inj (Option.some.inj split)
          obtain ⟨sign, closes⟩ := Option.ite_none_right_eq_some.1 closed
          obtain ⟨spelling, blanks, whole, same, blank⟩ := closeRaw?_eq_some_iff.1 closes
          refine ⟨'<' :: '/' :: spelling ++ blanks ++ ['>'], ?_,
            ⟨spelling, blanks, rfl, same, blank⟩, ?_⟩
          · simp [sign, whole]
          · exact splitRaw?_eq_none_iff.1 rfl
      | none =>
          rw [closed] at split
          obtain ⟨⟨inner, after⟩, found, same⟩ := Option.map_eq_some_iff.1 split
          obtain ⟨rfl, rfl⟩ := Prod.mk.inj same
          obtain ⟨closing, whole, isEndTag, unclosed⟩ := ih found
          refine ⟨closing, by simp [whole], isEndTag, ?_⟩
          rw [holdsEndTag_cons, not_or]
          refine ⟨fun starts => ?_, unclosed⟩
          -- an end tag in front of the body would have ended it
          have early := starts.append (closing ++ after)
          rw [List.cons_append, ← whole, startsEndTag_cons] at early
          obtain ⟨sign, first, closes⟩ := early
          rw [if_pos sign, closes] at closed
          cases closed

end Token

/-- A stretch of markup that is read in one step. -/
inductive Segment
  /-- A comment or a declaration. -/
  | skipped (source : List Char)
  /-- A run of text, as it is written. -/
  | text (source : List Char)
  /-- An end tag. -/
  | finish (source : List Char) (name : String)
  /-- A start tag. -/
  | start (source : List Char) (name : String) (attributes : Attributes) (selfClosing : Bool)
  /-- A raw element: its start tag, its body, and its end tag unless the body runs to the
  end. -/
  | raw (opening : List Char) (name : String) (attributes : Attributes) (body : List Char)
      (closing : Option (List Char))
deriving DecidableEq, Repr

namespace Segment

/-- The stretch of source. -/
def source : Segment → List Char
  | skipped source => source
  | text source => source
  | finish source _ => source
  | start source _ _ _ => source
  | raw opening _ _ body closing => opening ++ (body ++ closing.getD [])

/-- The tokens of the segment.  References are replaced in running text alone. -/
def tokens : Segment → List Token
  | skipped _ => []
  | text source => [.text (String.ofList (Reference.decode source))]
  | finish _ name => [.finish name]
  | start _ name attributes selfClosing => [.start name attributes selfClosing]
  | raw _ name attributes body closing =>
      .start name attributes false :: Token.rawText body ++
        (closing.map fun _ => Token.finish name).toList

/-- The segment is a raw element without an end tag. -/
def IsOpen : Segment → Prop
  | raw _ _ _ _ none => True
  | _ => False

/-- Start tags of raw elements stand apart only if they close themselves; a raw element ends
at the first end tag of its name. -/
def Proper : Segment → Prop
  | start _ name _ selfClosing => name ∈ rawNames → selfClosing = true
  | raw _ name _ body closing =>
      name ∈ rawNames ∧ ¬ HoldsEndTag name body ∧ ∀ tag ∈ closing, Token.IsEndTag name tag
  | _ => True

/-! ## One segment -/

/-- The part of a text before a rest that it ends with. -/
def frontOf (cs behind : List Char) : List Char :=
  cs.take (cs.length - behind.length)

/-- A text is what was read and what was left. -/
theorem frontOf_append {cs behind : List Char} (ends : behind <:+ cs) :
    frontOf cs behind ++ behind = cs := by
  obtain ⟨front, rfl⟩ := ends
  simp [frontOf]

@[simp]
theorem frontOf_append_self (front behind : List Char) :
    frontOf (front ++ behind) behind = front := by
  simp [frontOf]

/-- A run of text that begins with `c` and ends before the next `<`. -/
def readText (c : Char) (rest : List Char) : Segment × List Char :=
  (text (c :: rest.takeWhile (· != '<')), rest.dropWhile (· != '<'))

/-- A raw element behind its start tag. -/
def readRaw (opening : List Char) (name : String) (attributes : Attributes) (cs : List Char) :
    Segment × List Char :=
  match splitRaw? name cs with
  | some (body, behind) =>
      (raw opening name attributes body (some (frontOf (cs.drop body.length) behind)), behind)
  | none => (raw opening name attributes cs none, [])

/-- A start tag behind its `<`, or a whole raw element if the tag begins one. -/
def readElement? (cs : List Char) : Option (Segment × List Char) := do
  let (name, tag) ← readStartTag? cs
  let opening := '<' :: frontOf cs tag.behind
  if !tag.selfClosing && rawNames.contains name then
    some (readRaw opening name tag.attributes tag.behind)
  else some (start opening name tag.attributes tag.selfClosing, tag.behind)

/-- The segment that begins with the character `c`, and the rest. -/
def read (c : Char) (rest : List Char) : Segment × List Char :=
  if c = '<' then
    match rest with
    | '!' :: '-' :: '-' :: more =>
        (skipped (frontOf (c :: rest) (Token.behindComment more)), Token.behindComment more)
    | '!' :: more => (skipped (frontOf (c :: rest) (Token.behindTag more)), Token.behindTag more)
    | '?' :: more => (skipped (frontOf (c :: rest) (Token.behindTag more)), Token.behindTag more)
    | '/' :: more =>
        match readEndTag? more with
        | some (name, behind) => (finish (frontOf (c :: rest) behind) name, behind)
        | none => readText c rest
    | _ => (readElement? rest).getD (readText c rest)
  else readText c rest

/-- What is read as a segment: its tokens are those of one step of the scanner, it is proper,
and its source stands before the rest.  A raw element without an end tag leaves no rest. -/
structure Cuts (cs : List Char) (step : List Token × List Char) (cut : Segment × List Char) :
    Prop where
  /-- The segment is proper. -/
  proper : cut.1.Proper
  /-- The segment and the rest make up the text. -/
  source_append : cut.1.source ++ cut.2 = cs
  /-- The scanner reads the same tokens and leaves the same rest. -/
  step_eq : step = (cut.1.tokens, cut.2)
  /-- Nothing stands behind a raw element without an end tag. -/
  rest_eq_nil : cut.1.IsOpen → cut.2 = []

/-- A text is cut off as a segment of its own. -/
theorem cuts_readText (c : Char) (rest : List Char) :
    Cuts (c :: rest) (Token.readText c rest) (readText c rest) where
  proper := trivial
  source_append := congrArg (c :: ·) List.takeWhile_append_dropWhile
  step_eq := rfl
  rest_eq_nil := False.elim

/-- A raw element is cut off with its body. -/
theorem cuts_readRaw {name : String} (isRaw : name ∈ rawNames) (opening : List Char)
    (attributes : Attributes) (cs : List Char) :
    Cuts (opening ++ cs)
      (.start name attributes false :: (Token.readRaw name cs).1, (Token.readRaw name cs).2)
      (readRaw opening name attributes cs) := by
  cases split : splitRaw? name cs with
  | none =>
      have cut : readRaw opening name attributes cs =
          (raw opening name attributes cs none, []) := by
        rw [readRaw, split]
      rw [cut]
      exact {
        proper := ⟨isRaw, Token.splitRaw?_eq_none_iff.1 split, nofun⟩
        source_append := by simp [source]
        step_eq := by simp [Token.readRaw, split, tokens]
        rest_eq_nil := fun _ => rfl }
  | some parts =>
      obtain ⟨body, behind⟩ := parts
      obtain ⟨closing, whole, isEndTag, unclosed⟩ := Token.eq_append_of_splitRaw? split
      have cut : readRaw opening name attributes cs =
          (raw opening name attributes body (some closing), behind) := by
        rw [readRaw, split]
        simp [whole]
      rw [cut]
      exact {
        proper := ⟨isRaw, unclosed, fun tag member => Option.some.inj member ▸ isEndTag⟩
        source_append := by simp [source, whole]
        step_eq := by simp [Token.readRaw, split, tokens]
        rest_eq_nil := False.elim }

/-- Behind a `<` stands a start tag, perhaps with a raw element, or a run of text. -/
theorem cuts_readElement? (cs : List Char) :
    Cuts ('<' :: cs) ((Token.readElement? cs).getD (Token.readText '<' cs))
      ((readElement? cs).getD (readText '<' cs)) := by
  cases opened : readStartTag? cs with
  | none =>
      simp only [Token.readElement?, readElement?, opened, Option.bind_eq_bind, Option.bind_none,
        Option.getD_none]
      exact cuts_readText '<' cs
  | some parts =>
      obtain ⟨name, tag⟩ := parts
      have behind := frontOf_append (Token.suffix_of_readStartTag? opened)
      simp only [Token.readElement?, readElement?, opened, Option.bind_eq_bind, Option.bind_some]
      cases isRaw : !tag.selfClosing && rawNames.contains name with
      | true =>
          rw [Bool.and_eq_true, Bool.not_eq_true', List.contains_iff_mem] at isRaw
          have cuts :=
            cuts_readRaw isRaw.2 ('<' :: frontOf cs tag.behind) tag.attributes tag.behind
          rwa [List.cons_append, behind, ← isRaw.1] at cuts
      | false =>
          exact {
            proper := fun member => by simpa [member] using isRaw
            source_append := congrArg ('<' :: ·) behind
            step_eq := rfl
            rest_eq_nil := False.elim }

/-- What stands in no tag of its own kind is passed over. -/
theorem cuts_skipped {cs behind : List Char} (ends : behind <:+ cs) :
    Cuts cs ([], behind) (skipped (frontOf cs behind), behind) where
  proper := trivial
  source_append := frontOf_append ends
  step_eq := rfl
  rest_eq_nil := False.elim

theorem cuts_finish {cs behind : List Char} (ends : behind <:+ cs) (name : String) :
    Cuts cs ([.finish name], behind) (finish (frontOf cs behind) name, behind) where
  proper := trivial
  source_append := frontOf_append ends
  step_eq := rfl
  rest_eq_nil := False.elim

/-- One step of the scanner reads one segment. -/
theorem cuts_read (c : Char) (rest : List Char) :
    Cuts (c :: rest) (Token.next c rest) (read c rest) := by
  fun_cases Token.next c rest with
  | case1 sign more =>
      subst sign
      exact cuts_skipped
        ((Token.behindComment_suffix more).trans (List.suffix_append ['<', '!', '-', '-'] more))
  | case2 sign more noComment =>
      subst sign
      simp only [read, if_true]
      exact cuts_skipped ((Token.behindTag_suffix more).trans (List.suffix_append ['<', '!'] more))
  | case3 sign more =>
      subst sign
      exact cuts_skipped ((Token.behindTag_suffix more).trans (List.suffix_append ['<', '?'] more))
  | case4 sign more name behind ended =>
      subst sign
      simp only [read, if_true, ended]
      exact cuts_finish
        ((Token.suffix_of_readEndTag? ended).trans (List.suffix_append ['<', '/'] more)) name
  | case5 sign more unended =>
      subst sign
      simp only [read, if_true, unended]
      exact cuts_readText '<' ('/' :: more)
  | case6 _ sign noComment noDeclaration noInstruction noEnd =>
      subst sign
      simp only [read, if_true]
      exact cuts_readElement? rest
  | case7 _ plain =>
      simp only [read, if_neg plain]
      exact cuts_readText c rest

/-- A segment leaves fewer characters. -/
theorem length_read_le (c : Char) (rest : List Char) : (read c rest).2.length ≤ rest.length := by
  have step := (cuts_read c rest).step_eq
  have shorter := Token.length_next_le c rest
  rwa [step] at shorter

/-- The segments of a text, in source order. -/
def scan : List Char → List Segment
  | [] => []
  | c :: rest =>
      let cut := read c rest
      cut.1 :: scan cut.2
termination_by cs => cs.length
decreasing_by
  have := length_read_le c rest
  simp only [List.length_cons]
  omega

/-- The segments of a page's markup. -/
def ofMarkup (markup : String) : List Segment :=
  scan markup.toList

/-- Every segment is proper, and nothing stands behind a raw element without an end tag. -/
inductive Linked : List Segment → Prop
  | nil : Linked []
  | cons {segment : Segment} {rest : List Segment} (proper : segment.Proper)
      (last : segment.IsOpen → rest = []) (linked : Linked rest) : Linked (segment :: rest)

/-- Linked segments are proper. -/
theorem Linked.proper {segments : List Segment} (linked : Linked segments) :
    ∀ segment ∈ segments, segment.Proper := by
  induction linked with
  | nil => exact List.forall_mem_nil _
  | cons proper _ _ ih => exact List.forall_mem_cons.2 ⟨proper, ih⟩

theorem scan_nil : scan [] = [] :=
  scan.eq_1

theorem scan_cons (c : Char) (rest : List Char) :
    scan (c :: rest) = (read c rest).1 :: scan (read c rest).2 :=
  scan.eq_2 c rest

/-- The segments make up the text, their tokens are its tokens, and they are linked. -/
theorem scan_spec (cs : List Char) :
    (scan cs).flatMap source = cs ∧ (scan cs).flatMap tokens = Token.scan cs ∧
      Linked (scan cs) := by
  induction size : cs.length using Nat.strongRecOn generalizing cs with
  | ind size ih =>
    cases cs with
    | nil =>
        rw [scan_nil, Token.scan_nil]
        exact ⟨rfl, rfl, .nil⟩
    | cons c rest =>
        have cuts := cuts_read c rest
        have shorter := length_read_le c rest
        rw [List.length_cons] at size
        obtain ⟨sources, tokenLists, linked⟩ := ih _ (by omega) (read c rest).2 rfl
        rw [scan_cons, Token.scan_cons, cuts.step_eq]
        refine ⟨?_, ?_, .cons cuts.proper (fun isOpen => ?_) linked⟩
        · rw [List.flatMap_cons, sources, cuts.source_append]
        · rw [List.flatMap_cons, tokenLists]
        · rw [cuts.rest_eq_nil isOpen, scan_nil]

/-- The segments make up the markup. -/
theorem flatMap_source (markup : String) : (ofMarkup markup).flatMap source = markup.toList :=
  (scan_spec markup.toList).1

/-- The segments give the tokens of the markup. -/
theorem flatMap_tokens (markup : String) :
    (ofMarkup markup).flatMap tokens = Token.ofMarkup markup :=
  (scan_spec markup.toList).2.1

/-- The segments of a markup are linked. -/
theorem linked_ofMarkup (markup : String) : Linked (ofMarkup markup) :=
  (scan_spec markup.toList).2.2

end Segment

end Markup
end Pagelet
