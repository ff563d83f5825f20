import Mathlib.Tactic.MkIffOfInductiveProp
import Pagelet.Proofs.Style.Spacing

/-!
# Printed sheets

Blocks are written as lists of selectors before their declarations in braces, with blanks
between.  A sheet of such blocks holds no comment and is cut where the blocks end, so reading
it gives back the entries of the blocks.
-/

namespace Pagelet
namespace Style

open Text (IsBlankText Quotation isBlank)

/-- A rule before it is written: selectors with one block of declarations. -/
structure Block where
  /-- The selectors. -/
  selectors : List String
  /-- The text between the braces. -/
  body : String
deriving DecidableEq, Repr

namespace Block

/-- The properties that the declarations set. -/
def properties (block : Block) : Properties :=
  Properties.parse block.body

/-- Some declaration can be used. -/
def isUsable (block : Block) : Bool :=
  !block.properties.isEmpty

/-- What the block adds to a rule table. -/
def entries (block : Block) : List (String × Properties) :=
  if block.isUsable then block.selectors.map fun selector => (selector, block.properties) else []

end Block

/-- No comment begins outside quotes. -/
def Uncommented (state : Quotation) (cs : List Char) : Prop :=
  ∀ front behind, cs = front ++ '/' :: '*' :: behind → state.after marks front ≠ .outside

/-- Wherever the sign stands, the text before it takes a scanner to a state that fits. -/
def AtEvery {σ : Type} (next : σ → Char → σ) (fits : σ → Prop) (sign : Char) (state : σ)
    (cs : List Char) : Prop :=
  ∀ front behind, cs = front ++ sign :: behind → fits (front.foldl next state)

/-- Wherever the sign stands, it stands inside a quoted string. -/
abbrev Covered : Char → Quotation → List Char → Prop :=
  AtEvery (Quotation.next marks) (· ≠ .outside)

/-- The signs that have a meaning between blocks. -/
def signs : List Char := ['{', '}', '\'', '"', '/']

/-- None of the signs stands in the text. -/
def IsPlain (cs : List Char) : Prop :=
  ∀ c ∈ cs, c ∉ signs

/-- A selector in the form in which rules are looked up. -/
@[mk_iff]
structure IsSelector (selector : String) : Prop where
  /-- There is a selector. -/
  ne_empty : selector ≠ ""
  /-- The words stand one space apart. -/
  collapse_eq : Text.collapse selector.toList = selector.toList
  /-- A selector that begins with a letter is in small letters. -/
  small : selector.toList.head?.any Char.isAlpha = true →
    Text.asciiLowercase selector.toList = selector.toList
  /-- The selector is not that of a special rule. -/
  noAt : selector.toList.head? ≠ some '@'
  /-- The selector ends no list. -/
  noComma : ',' ∉ selector.toList
  /-- The selector opens and ends no block, no string and no comment. -/
  plain : IsPlain selector.toList

/-- A text that can stand between braces. -/
@[mk_iff]
structure IsBody (body : String) : Prop where
  /-- The text opens no block. -/
  noOpening : '{' ∉ body.toList
  /-- The text ends no block. -/
  noClosing : '}' ∉ body.toList
  /-- Quotes are closed. -/
  closed : Quotation.after marks .outside body.toList = .outside
  /-- The text opens no comment. -/
  uncommented : Uncommented .outside body.toList

/-- A text that ends where the brace behind it stands.  It may open blocks of its own. -/
@[mk_iff]
structure IsEnclosed (body : String) : Prop where
  /-- Closing braces stand inside quoted strings. -/
  closing : Covered '}' .outside body.toList
  /-- Quotes are closed. -/
  closed : Quotation.after marks .outside body.toList = .outside
  /-- The text opens no comment. -/
  uncommented : Uncommented .outside body.toList

namespace Block

/-- A block that can be written. -/
@[mk_iff]
structure Written (block : Block) : Prop where
  /-- The selectors can be looked up. -/
  selectors : ∀ selector ∈ block.selectors, IsSelector selector
  /-- The declarations can stand between braces. -/
  body : IsBody block.body

/-- A block that ends where its closing brace stands. -/
@[mk_iff]
structure Enclosed (block : Block) : Prop where
  /-- The selectors can be looked up. -/
  selectors : ∀ selector ∈ block.selectors, IsSelector selector
  /-- The declarations end where the closing brace stands. -/
  body : IsEnclosed block.body

/-- The declarations hold an opening brace, inside a quoted string or not. -/
def holdsOpening (block : Block) : Bool :=
  block.body.toList.contains '{'

end Block

/-- The blanks between the parts of a sheet. -/
structure Layout where
  /-- What stands before a comma. -/
  beforeComma : List Char := []
  /-- What stands behind a comma. -/
  behindComma : List Char := [' ']
  /-- What stands before an opening brace. -/
  beforeBrace : List Char := [' ']
  /-- What stands around a body. -/
  aroundBody : List Char := [' ']
  /-- What stands behind a closing brace. -/
  behindBrace : List Char := ['\n']
deriving DecidableEq, Repr

namespace Layout

/-- The layout is made of blanks. -/
@[mk_iff]
structure IsBlank (layout : Layout) : Prop where
  /-- Blanks stand before commas. -/
  beforeComma : IsBlankText layout.beforeComma
  /-- Blanks stand behind commas. -/
  behindComma : IsBlankText layout.behindComma
  /-- Blanks stand before opening braces. -/
  beforeBrace : IsBlankText layout.beforeBrace
  /-- Blanks stand around bodies. -/
  aroundBody : IsBlankText layout.aroundBody
  /-- Blanks stand behind closing braces. -/
  behindBrace : IsBlankText layout.behindBrace

/-- The list of the selectors, each behind a comma but the first. -/
def list (layout : Layout) (selectors : List String) : List Char :=
  (layout.beforeComma ++ ',' :: layout.behindComma).intercalate (selectors.map String.toList)

/-- What stands before the opening brace of a block. -/
def head (layout : Layout) (selectors : List String) : List Char :=
  layout.list selectors ++ layout.beforeBrace

/-- What stands between the braces of a block. -/
def inner (layout : Layout) (body : String) : List Char :=
  layout.aroundBody ++ body.toList ++ layout.aroundBody

/-- A block. -/
def block (layout : Layout) (block : Block) : List Char :=
  layout.head block.selectors ++ '{' :: layout.inner block.body ++ '}' :: layout.behindBrace

/-- A sheet of blocks. -/
def sheet (layout : Layout) (blocks : List Block) : String :=
  String.ofList (blocks.flatMap layout.block)

end Layout

namespace IsPlain

variable {cs front back : List Char}

theorem of_isBlankText (blank : IsBlankText cs) : IsPlain cs := by
  have visible : signs.any isBlank = false := by decide
  intro c member sign
  exact absurd (blank c member) (List.any_eq_false.1 visible c sign)

theorem append (first : IsPlain front) (second : IsPlain back) : IsPlain (front ++ back) :=
  List.forall_mem_append.2 ⟨first, second⟩

theorem not_mem {sign : Char} (plain : IsPlain cs) (isSign : sign ∈ signs) : sign ∉ cs :=
  fun member => plain sign member isSign

/-- No quotes are opened. -/
theorem after_eq (plain : IsPlain cs) : Quotation.after marks .outside cs = .outside := by
  induction cs with
  | nil => rfl
  | cons c rest ih =>
      obtain ⟨first, others⟩ := List.forall_mem_cons.1 plain
      have unmarked : marks.contains c = false := by
        simp only [signs, List.mem_cons, List.not_mem_nil, not_or] at first
        simp [marks, first]
      rw [Quotation.after_cons, Quotation.next, unmarked, if_neg Bool.false_ne_true, ih others]

end IsPlain

theorem dropComments_cons {state : Quotation} {c : Char} {rest : List Char}
    (noComment : ¬(state = .outside ∧ c = '/' ∧ rest.head? = some '*')) :
    dropComments (.code state) (c :: rest) =
      c :: dropComments (.code (state.next marks c)) rest := by
  rw [dropComments]
  rintro more rfl rfl rfl
  exact noComment ⟨rfl, rfl, rfl⟩

theorem uncommented_nil (state : Quotation) : Uncommented state [] := by
  intro front behind whole
  simp at whole

theorem uncommented_cons_iff {state : Quotation} {c : Char} {rest : List Char} :
    Uncommented state (c :: rest) ↔
      ¬(state = .outside ∧ c = '/' ∧ rest.head? = some '*') ∧
        Uncommented (state.next marks c) rest := by
  constructor
  · intro uncommented
    refine ⟨?_, fun front behind whole => uncommented (c :: front) behind (congrArg (c :: ·) whole)⟩
    rintro ⟨rfl, rfl, begins⟩
    obtain ⟨more, rfl⟩ := List.head?_eq_some_iff.1 begins
    exact uncommented [] more rfl rfl
  · rintro ⟨noComment, others⟩ (_ | ⟨d, front⟩) behind whole
    · obtain ⟨rfl, rfl⟩ := List.cons.inj whole
      exact fun outside => noComment ⟨outside, rfl, rfl⟩
    · obtain ⟨rfl, more⟩ := List.cons.inj whole
      exact others front behind more

instance decidableUncommented :
    (state : Quotation) → (cs : List Char) → Decidable (Uncommented state cs)
  | state, [] => isTrue (uncommented_nil state)
  | state, c :: rest =>
      have := decidableUncommented (state.next marks c) rest
      decidable_of_iff' _ uncommented_cons_iff

namespace Uncommented

variable {state : Quotation} {cs front back : List Char}

theorem of_not_mem (noSlash : '/' ∉ cs) : Uncommented state cs := by
  rintro front behind rfl
  exact absurd (List.mem_append_right front List.mem_cons_self) noSlash

theorem dropComments_eq (uncommented : Uncommented state cs) :
    dropComments (.code state) cs = cs := by
  induction cs generalizing state with
  | nil => rfl
  | cons c rest ih =>
      obtain ⟨noComment, others⟩ := uncommented_cons_iff.1 uncommented
      rw [dropComments_cons noComment, ih others]

/-- Two texts make no comment where they meet, unless a slash meets a star. -/
theorem append (first : Uncommented state front)
    (second : Uncommented (state.after marks front) back)
    (apart : front.getLast? = some '/' → back.head? ≠ some '*') :
    Uncommented state (front ++ back) := by
  induction front generalizing state with
  | nil => exact second
  | cons c rest ih =>
      obtain ⟨noComment, others⟩ := uncommented_cons_iff.1 first
      rw [List.cons_append, uncommented_cons_iff]
      cases rest with
      | nil => exact ⟨fun begins => apart (congrArg some begins.2.1) begins.2.2, second⟩
      | cons d rest => exact ⟨noComment, ih others second apart⟩

/-- A text without slashes and with closed quotes begins no comment with what is behind it. -/
theorem append_of_not_mem (noSlash : '/' ∉ front)
    (closed : state.after marks front = .outside) (uncommented : Uncommented .outside back) :
    Uncommented state (front ++ back) :=
  (of_not_mem noSlash).append (closed ▸ uncommented)
    fun ends => absurd (List.mem_of_getLast? ends) noSlash

end Uncommented

/-! ## Signs in their places -/

section AtEvery

variable {σ : Type} {next : σ → Char → σ} {fits : σ → Prop} {sign : Char} {state : σ}

theorem atEvery_nil : AtEvery next fits sign state [] := by
  intro front behind whole
  simp at whole

theorem atEvery_cons_iff {c : Char} {rest : List Char} :
    AtEvery next fits sign state (c :: rest) ↔
      (c = sign → fits state) ∧ AtEvery next fits sign (next state c) rest := by
  constructor
  · intro all
    refine ⟨?_, fun front behind whole => all (c :: front) behind (congrArg (c :: ·) whole)⟩
    rintro rfl
    exact all [] rest rfl
  · rintro ⟨first, others⟩ (_ | ⟨d, front⟩) behind whole
    · exact first (List.cons.inj whole).1
    · obtain ⟨rfl, more⟩ := List.cons.inj whole
      exact others front behind more

instance decidableAtEvery [DecidablePred fits] :
    (state : σ) → (cs : List Char) → Decidable (AtEvery next fits sign state cs)
  | _, [] => isTrue atEvery_nil
  | state, c :: rest =>
      have := decidableAtEvery (next state c) rest
      decidable_of_iff' _ atEvery_cons_iff

namespace AtEvery

variable {cs front back : List Char}

theorem of_not_mem (absent : sign ∉ cs) : AtEvery next fits sign state cs := by
  rintro front behind rfl
  exact absurd (List.mem_append_right front List.mem_cons_self) absent

theorem append (first : AtEvery next fits sign state front)
    (second : AtEvery next fits sign (front.foldl next state) back) :
    AtEvery next fits sign state (front ++ back) := by
  induction front generalizing state with
  | nil => exact second
  | cons c rest ih =>
      obtain ⟨begins, others⟩ := atEvery_cons_iff.1 first
      exact atEvery_cons_iff.2 ⟨begins, ih others second⟩

end AtEvery

end AtEvery

/-- A text is cut at the first sign outside quotes, whatever signs are quoted before it. -/
theorem cutAt_append {target : Char} (unmarked : target ∉ marks)
    {state : Quotation} {front : List Char} (covered : Covered target state front)
    (closed : state.after marks front = .outside) (behind : List Char) :
    Quotation.cutAt marks target state (front ++ target :: behind) = some (front, behind) := by
  induction front generalizing state with
  | nil =>
      obtain rfl : state = .outside := closed
      simp [Quotation.cutAt, Quotation.covers, unmarked]
  | cons c rest ih =>
      obtain ⟨first, others⟩ := atEvery_cons_iff.1 covered
      have other : ¬ (!state.covers marks c && c == target) = true := fun here => by
        rw [Bool.and_eq_true, Bool.not_eq_true', beq_iff_eq] at here
        exact first here.2 (Quotation.next_of_not_covers here.1).1
      rw [List.cons_append, Quotation.cutAt, if_neg other, ih others closed]
      rfl

theorem cutAt_eq_none {target : Char} {cs : List Char} (absent : target ∉ cs)
    (state : Quotation) : Quotation.cutAt marks target state cs = none := by
  induction cs generalizing state with
  | nil => rfl
  | cons c rest ih =>
      rw [List.mem_cons, not_or] at absent
      have other : ¬ (!state.covers marks c && c == target) = true := by
        simp [Ne.symm absent.1]
      rw [Quotation.cutAt, if_neg other, ih absent.2]
      rfl

theorem blocks_of_not_mem {cs : List Char} (absent : '{' ∉ cs) : blocks cs = [] := by
  rw [blocks]
  split
  · rfl
  · next opening =>
    rw [cutAt_eq_none absent] at opening
    cases opening

/-- A block whose braces are covered in its parts is cut out, and then what comes behind it. -/
theorem blocks_append {before body : List Char} (opening : Covered '{' .outside before)
    (closedBefore : Quotation.after marks .outside before = .outside)
    (closing : Covered '}' .outside body)
    (closedBody : Quotation.after marks .outside body = .outside) (behind : List Char) :
    blocks (before ++ '{' :: (body ++ '}' :: behind)) = (before, body) :: blocks behind := by
  have opens := cutAt_append (by decide) opening closedBefore (body ++ '}' :: behind)
  have closes := cutAt_append (by decide) closing closedBody behind
  rw [blocks]
  split
  · next opening =>
    rw [opens] at opening
    cases opening
  · next opening =>
    rw [opens] at opening
    obtain ⟨rfl, rfl⟩ := Prod.mk.inj (Option.some.inj opening)
    split
    · next closing =>
      rw [closes] at closing
      cases closing
    · next closing =>
      rw [closes] at closing
      obtain ⟨rfl, rfl⟩ := Prod.mk.inj (Option.some.inj closing)
      rfl

theorem behindBraces_of_not_mem {cs : List Char} (absent : '}' ∉ cs) : behindBraces cs = cs := by
  have kept : ∀ c ∈ cs.reverse, (c != '}') = true := fun c member => by
    rw [bne_iff_ne]
    rintro rfl
    exact absent (List.mem_reverse.1 member)
  rw [behindBraces, List.takeWhile_eq_self_iff.2 kept, List.reverse_reverse]

theorem Block.Written.enclosed {block : Block} (written : block.Written) : block.Enclosed where
  selectors := written.selectors
  body :=
    { closing := .of_not_mem written.body.noClosing
      closed := written.body.closed
      uncommented := written.body.uncommented }

/-- A comma outside everything parts two lists of selectors. -/
theorem selectors_append_cons (front back : List Char) :
    selectors (front ++ ',' :: back) = selectors front ++ selectors back := by
  rw [selectors, List.splitOnP_append_cons front back (by decide), List.filterMap_append]
  rfl

theorem selectors_of_not_mem {cs : List Char} (noComma : ',' ∉ cs) :
    selectors cs = (selector? cs).toList := by
  have alone : ∀ c ∈ cs, (c == ',') = false := fun c member => by
    rw [beq_eq_false_iff_ne]
    rintro rfl
    exact noComma member
  rw [selectors, List.splitOnP_eq_singleton alone]
  cases found : selector? cs <;> simp [found]

namespace IsSelector

variable {selector : String}

/-- A selector is read back as itself. -/
theorem selector?_eq (isSelector : IsSelector selector) :
    selector? selector.toList = some selector := by
  have notEmpty : selector.toList ≠ [] := by simpa using isSelector.ne_empty
  obtain ⟨c, rest, whole⟩ := List.exists_cons_of_ne_nil notEmpty
  have small := isSelector.small
  have noAt := isSelector.noAt
  rw [whole] at small noAt
  have kept : (if c.isAlpha then Text.asciiLowercase (c :: rest) else c :: rest) = c :: rest :=
    ite_eq_right_iff.2 small
  rw [selector?, isSelector.collapse_eq, whole]
  split
  · next empty => cases empty
  · next special =>
    obtain ⟨rfl, -⟩ := List.cons.inj special
    exact absurd rfl noAt
  · next others =>
    obtain ⟨rfl, rfl⟩ := List.cons.inj others
    rw [kept, ← whole, String.ofList_toList]

/-- Blanks around a selector alone make no difference. -/
theorem selectors_spaced (isSelector : IsSelector selector) {lead tail : List Char}
    (leadBlank : IsBlankText lead) (tailBlank : IsBlankText tail) :
    selectors (lead ++ selector.toList ++ tail) = [selector] := by
  have noComma : ',' ∉ lead ++ selector.toList ++ tail := by
    simp only [List.mem_append, not_or]
    exact ⟨⟨Text.not_mem_of_isBlankText leadBlank (by decide), isSelector.noComma⟩,
      Text.not_mem_of_isBlankText tailBlank (by decide)⟩
  rw [selectors_of_not_mem noComma, selector?_spaced leadBlank tailBlank,
    isSelector.selector?_eq, Option.toList_some]

end IsSelector

namespace Layout

variable {layout : Layout}

theorem list_cons_cons (first second : String) (others : List String) :
    layout.list (first :: second :: others) =
      first.toList ++ layout.beforeComma ++ ',' ::
        (layout.behindComma ++ layout.list (second :: others)) := by
  simp [list]

/-- The selectors of a list are read back. -/
theorem selectors_list (blank : layout.IsBlank) {names : List String}
    (areSelectors : ∀ name ∈ names, IsSelector name) {lead tail : List Char}
    (leadBlank : IsBlankText lead) (tailBlank : IsBlankText tail) :
    selectors (lead ++ layout.list names ++ tail) = names := by
  induction names generalizing lead with
  | nil =>
      have noComma : ',' ∉ lead ++ [] ++ tail := by
        rw [List.append_nil, List.mem_append, not_or]
        exact ⟨Text.not_mem_of_isBlankText leadBlank (by decide),
          Text.not_mem_of_isBlankText tailBlank (by decide)⟩
      have empty : layout.list [] = [] := rfl
      rw [empty, selectors_of_not_mem noComma, selector?_spaced leadBlank tailBlank]
      rfl
  | cons name others ih =>
      obtain ⟨first, more⟩ := List.forall_mem_cons.1 areSelectors
      cases others with
      | nil => simpa [list] using first.selectors_spaced leadBlank tailBlank
      | cons next others =>
          have cut : lead ++ layout.list (name :: next :: others) ++ tail =
              (lead ++ name.toList ++ layout.beforeComma) ++
                ',' :: (layout.behindComma ++ layout.list (next :: others) ++ tail) := by
            simp [list_cons_cons]
          rw [cut, selectors_append_cons, first.selectors_spaced leadBlank blank.beforeComma,
            ih more blank.behindComma]
          rfl

theorem isPlain_list (blank : layout.IsBlank) {names : List String}
    (areSelectors : ∀ name ∈ names, IsSelector name) : IsPlain (layout.list names) := by
  induction names with
  | nil => exact List.forall_mem_nil _
  | cons name others ih =>
      obtain ⟨first, more⟩ := List.forall_mem_cons.1 areSelectors
      cases others with
      | nil => simpa [list] using first.plain
      | cons next others =>
          have comma : IsPlain (',' :: (layout.behindComma ++ layout.list (next :: others))) :=
            List.forall_mem_cons.2
              ⟨by decide, (IsPlain.of_isBlankText blank.behindComma).append (ih more)⟩
          rw [list_cons_cons]
          exact (first.plain.append (.of_isBlankText blank.beforeComma)).append comma

theorem isPlain_head (blank : layout.IsBlank) {names : List String}
    (areSelectors : ∀ name ∈ names, IsSelector name) : IsPlain (layout.head names) :=
  (isPlain_list blank areSelectors).append (.of_isBlankText blank.beforeBrace)

/-! ## Blocks that are read back -/

theorem after_inner (blank : layout.IsBlank) {body : String} (enclosed : IsEnclosed body) :
    Quotation.after marks .outside (layout.inner body) = .outside := by
  have gap := (IsPlain.of_isBlankText blank.aroundBody).after_eq
  rw [inner, Quotation.after_append, Quotation.after_append, gap, enclosed.closed, gap]

theorem covered_inner (blank : layout.IsBlank) {body : String} (enclosed : IsEnclosed body) :
    Covered '}' .outside (layout.inner body) := by
  have gap := IsPlain.of_isBlankText blank.aroundBody
  have blanks (state : Quotation) : Covered '}' state layout.aroundBody :=
    .of_not_mem (gap.not_mem (by decide))
  have inside : Covered '}' (Quotation.after marks .outside layout.aroundBody) body.toList := by
    rw [gap.after_eq]
    exact enclosed.closing
  exact ((blanks _).append inside).append (blanks _)

/-- What stands behind a body begins with no star. -/
theorem head?_behindBody (blank : layout.IsBlank) (behind : List Char) :
    (layout.aroundBody ++ '}' :: behind).head? ≠ some '*' := by
  have gap := blank.aroundBody
  cases around : layout.aroundBody with
  | nil => exact fun star => absurd (Option.some.inj star) (by decide)
  | cons c rest =>
      rw [around] at gap
      have apart : c ≠ '*' := Text.ne_of_isBlank (gap c List.mem_cons_self) (by decide)
      exact fun star => apart (Option.some.inj star)

/-- A printed block begins no comment, not even with what is behind it. -/
theorem uncommented_block (blank : layout.IsBlank) {block : Block} (enclosed : block.Enclosed)
    {behind : List Char} (uncommented : Uncommented .outside behind) :
    Uncommented .outside (layout.block block ++ behind) := by
  have head := isPlain_head blank enclosed.selectors
  have gap := IsPlain.of_isBlankText blank.aroundBody
  have ending := IsPlain.of_isBlankText blank.behindBrace
  have slash : '/' ∈ signs := by decide
  -- the parts are put together from the back: behind the body, the body, before the body
  have closes : Uncommented .outside
      ((layout.aroundBody ++ '}' :: layout.behindBrace) ++ behind) := by
    refine .append_of_not_mem ?_ ?_ uncommented
    · simp [gap.not_mem slash, ending.not_mem slash]
    · rw [Quotation.after_append, gap.after_eq]
      exact ending.after_eq
  have inside : Uncommented .outside
      (block.body.toList ++ ((layout.aroundBody ++ '}' :: layout.behindBrace) ++ behind)) := by
    refine enclosed.body.uncommented.append (by rwa [enclosed.body.closed]) fun _ => ?_
    rw [List.append_assoc, List.cons_append]
    exact head?_behindBody blank _
  have opens : Uncommented .outside ((layout.head block.selectors ++ '{' :: layout.aroundBody) ++
      (block.body.toList ++ ((layout.aroundBody ++ '}' :: layout.behindBrace) ++ behind))) := by
    refine .append_of_not_mem ?_ ?_ inside
    · simp [gap.not_mem slash, head.not_mem slash]
    · rw [Quotation.after_append, head.after_eq]
      exact gap.after_eq
  simpa [Layout.block, inner] using opens

/-- Printed blocks have no comments. -/
theorem uncommented_blocks (blank : layout.IsBlank) {blocks : List Block}
    (enclosed : ∀ block ∈ blocks, block.Enclosed) :
    Uncommented .outside (blocks.flatMap layout.block) := by
  induction blocks with
  | nil => exact .of_not_mem List.not_mem_nil
  | cons block rest ih =>
      obtain ⟨first, others⟩ := List.forall_mem_cons.1 enclosed
      rw [List.flatMap_cons]
      exact uncommented_block blank first (ih others)

/-- A printed block is cut off where it ends. -/
theorem blocks_block (blank : layout.IsBlank) {block : Block} (enclosed : block.Enclosed)
    {lead : List Char} (leadBlank : IsBlankText lead) (behind : List Char) :
    blocks (lead ++ (layout.block block ++ behind)) =
      (lead ++ layout.head block.selectors, layout.inner block.body) ::
        blocks (layout.behindBrace ++ behind) := by
  have front : IsPlain (lead ++ layout.head block.selectors) :=
    (IsPlain.of_isBlankText leadBlank).append (isPlain_head blank enclosed.selectors)
  have cut := blocks_append (.of_not_mem (front.not_mem (by decide))) front.after_eq
    (covered_inner blank enclosed.body) (after_inner blank enclosed.body)
    (layout.behindBrace ++ behind)
  rw [← cut]
  simp [Layout.block]

/-- The entries of a printed block are those of the block, unless it holds an opening brace. -/
theorem blockEntries_block (blank : layout.IsBlank) {block : Block} (enclosed : block.Enclosed)
    {lead : List Char} (leadBlank : IsBlankText lead) :
    blockEntries (lead ++ layout.head block.selectors) (layout.inner block.body) =
      if block.holdsOpening then [] else block.entries := by
  have opening : (layout.inner block.body).contains '{' = block.holdsOpening := by
    have gap := (IsPlain.of_isBlankText blank.aroundBody).not_mem (show '{' ∈ signs by decide)
    simp [inner, Block.holdsOpening, gap]
  have front : IsPlain (lead ++ layout.head block.selectors) :=
    (IsPlain.of_isBlankText leadBlank).append (isPlain_head blank enclosed.selectors)
  have whole : behindBraces (lead ++ layout.head block.selectors) =
      lead ++ layout.head block.selectors :=
    behindBraces_of_not_mem (front.not_mem (by decide))
  have names : selectors (lead ++ layout.head block.selectors) = block.selectors := by
    rw [head, ← List.append_assoc]
    exact selectors_list blank enclosed.selectors leadBlank blank.beforeBrace
  have properties : Properties.ofBlock (layout.inner block.body) = block.properties :=
    Properties.ofBlock_spaced blank.aroundBody blank.aroundBody _
  rw [blockEntries, opening, properties, whole, names, Block.entries, Block.isUsable]
  cases empty : block.properties.isEmpty <;> simp [empty]

/-- Printed blocks give the entries of those without an opening brace. -/
theorem flatMap_blockEntries (blank : layout.IsBlank) {printed : List Block}
    (enclosed : ∀ block ∈ printed, block.Enclosed) {lead : List Char}
    (leadBlank : IsBlankText lead) :
    ((blocks (lead ++ printed.flatMap layout.block)).flatMap fun (before, body) =>
        blockEntries before body) =
      (printed.filter (!·.holdsOpening)).flatMap Block.entries := by
  induction printed generalizing lead with
  | nil =>
      have noBlock : '{' ∉ lead ++ [] := by
        rw [List.append_nil]
        exact Text.not_mem_of_isBlankText leadBlank (by decide)
      rw [List.flatMap_nil, blocks_of_not_mem noBlock]
      rfl
  | cons block rest ih =>
      obtain ⟨first, others⟩ := List.forall_mem_cons.1 enclosed
      rw [List.flatMap_cons, blocks_block blank first leadBlank, List.flatMap_cons,
        ih others blank.behindBrace, List.filter_cons]
      refine (congrArg (· ++ _) (blockEntries_block blank first leadBlank)).trans ?_
      cases block.holdsOpening <;> rfl

/-- A printed sheet has the entries of its blocks that hold no opening brace. -/
theorem sheetEntries_enclosed (blank : layout.IsBlank) {printed : List Block}
    (enclosed : ∀ block ∈ printed, block.Enclosed) :
    sheetEntries (layout.sheet printed) =
      (printed.filter (!·.holdsOpening)).flatMap Block.entries := by
  rw [sheetEntries, sheet, String.toList_ofList,
    (uncommented_blocks blank enclosed).dropComments_eq]
  exact flatMap_blockEntries blank enclosed Text.isBlankText_nil

/-- A printed sheet of flat blocks has the entries of its blocks. -/
theorem sheetEntries_sheet (blank : layout.IsBlank) {printed : List Block}
    (written : ∀ block ∈ printed, block.Written) :
    sheetEntries (layout.sheet printed) = printed.flatMap Block.entries := by
  have flat : ∀ block ∈ printed, (!block.holdsOpening) = true := fun block member => by
    simpa [Block.holdsOpening] using (written block member).body.noOpening
  rw [sheetEntries_enclosed blank fun block member => (written block member).enclosed,
    List.filter_eq_self.2 flat]

end Layout

instance (cs : List Char) : Decidable (IsBlankText cs) :=
  List.decidableBAll (fun c => isBlank c = true) cs

instance (cs : List Char) : Decidable (IsPlain cs) :=
  List.decidableBAll (fun c => c ∉ signs) cs

instance : DecidablePred IsSelector := fun selector =>
  decidable_of_iff' _ (isSelector_iff selector)

instance : DecidablePred IsBody := fun body =>
  decidable_of_iff' _ (isBody_iff body)

instance : DecidablePred IsEnclosed := fun body =>
  decidable_of_iff' _ (isEnclosed_iff body)

instance : DecidablePred Block.Written := fun block =>
  decidable_of_iff' _ (Block.written_iff block)

instance : DecidablePred Block.Enclosed := fun block =>
  decidable_of_iff' _ (Block.enclosed_iff block)

instance : DecidablePred Layout.IsBlank := fun layout =>
  decidable_of_iff' _ (Layout.isBlank_iff layout)

end Style
end Pagelet
