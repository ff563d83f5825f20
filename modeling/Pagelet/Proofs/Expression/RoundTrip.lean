import Pagelet.Proofs.Expression.Completeness
import Pagelet.Proofs.Expression.Printing

/-!
# Expressions that are read back

An expression that is written out is read as the same tree, as long as the nesting limit has
room for it: a pair of parentheses and the operator between them take two units from what
they enclose, so that half the limit is enough for the height of any tree.  The trees that can
be written are exactly those that reading returns, but for their height.
-/

namespace Pagelet
namespace Script

open Statement (IsName)

/-- The literal has a spelling: it is no negative number. -/
def Value.Spellable : Value → Prop
  | number value => 0 ≤ value.toInt
  | _ => True

namespace Expr

/-- Every literal of the tree has a spelling, and every variable a name that is not the name of a
truth value. -/
def Spellable : Expr → Prop
  | literal value => value.Spellable
  | var name => IsName name ∧ name ≠ "true" ∧ name ≠ "false"
  | unary _ operand => operand.Spellable
  | binary _ left right => left.Spellable ∧ right.Spellable

section Readings

variable {room : Nat} {lexemes inner rest : List Lexeme} {sign : Lexeme} {op : BinaryOp}
  {expr left right : Expr}

/-- An operand is a product if no sign joins a factor behind it. -/
theorem readProduct_of_operand (read : readOperand room lexemes = .ok (expr, rest))
    (ends : productSign? rest = none) : readProduct room lexemes = .ok (expr, rest) := by
  rw [readProduct, productOf, read]
  exact readProductLinks_done ends

/-- A product is a sum if no sign joins a term behind it. -/
theorem readSum_of_product (read : readProduct room lexemes = .ok (expr, rest))
    (ends : sumSign? rest = none) : readSum room lexemes = .ok (expr, rest) := by
  rw [readSum, sumOf, read]
  exact readSumLinks_done ends

/-- A sum is an equality if nothing is compared with it. -/
theorem readEquality_of_sum (read : readSum room lexemes = .ok (expr, rest))
    (ends : comparison? rest = none) : readEquality room lexemes = .ok (expr, rest) := by
  rw [readEquality, equalityOf, read]
  simp [bind, Except.bind, ends]

/-- A product of two factors is read if no sign joins a third. -/
theorem readProduct_link (joins : Joins .product sign op)
    (first : readOperand (room + 1) lexemes = .ok (left, sign :: inner))
    (last : readOperand room inner = .ok (right, rest)) (ends : productSign? rest = none) :
    readProduct (room + 1) lexemes = .ok (.binary op left right, rest) := by
  rw [readProduct, productOf, first]
  refine (readProductLinks_link joins).trans ?_
  rw [last]
  exact readProductLinks_done ends

theorem readSum_link (joins : Joins .sum sign op)
    (first : readProduct (room + 1) lexemes = .ok (left, sign :: inner))
    (last : readProduct room inner = .ok (right, rest)) (ends : sumSign? rest = none) :
    readSum (room + 1) lexemes = .ok (.binary op left right, rest) := by
  rw [readSum, sumOf, first]
  refine (readSumLinks_link joins).trans ?_
  rw [last]
  exact readSumLinks_done ends

theorem readEquality_compared (joins : Joins .equality sign op)
    (first : readSum room lexemes = .ok (left, sign :: inner))
    (last : readSum room inner = .ok (right, rest)) :
    readEquality room lexemes = .ok (.binary op left right, rest) := by
  rw [readEquality, equalityOf, first]
  simp [bind, Except.bind, comparison?_eq_some_iff.2 ⟨sign, joins, rfl⟩, last]

end Readings

/-- Every operator joins the parts of some category. -/
theorem exists_joins (op : BinaryOp) : ∃ category, Joins category op.sign op := by
  cases op
  · exact ⟨_, .plus⟩
  · exact ⟨_, .minus⟩
  · exact ⟨_, .star⟩
  · exact ⟨_, .slash⟩
  · exact ⟨_, .equal⟩
  · exact ⟨_, .notEqual⟩

/-- Two operands with a sign between them are read between parentheses, at the level of the
sign. -/
theorem readEquality_pair {front back : List Lexeme} {left right : Expr} (op : BinaryOp)
    (room : Nat)
    (first : ∀ rest, readOperand (room + 1) (front ++ rest) = .ok (left, rest))
    (last : ∀ more, room ≤ more → ∀ rest, readOperand more (back ++ rest) = .ok (right, rest))
    (rest : List Lexeme) :
    readEquality (room + 1) (front ++ op.sign :: (back ++ .closeParen :: rest)) =
      .ok (.binary op left right, .closeParen :: rest) := by
  obtain ⟨category, joins⟩ := exists_joins op
  have leftRead := first (op.sign :: (back ++ .closeParen :: rest))
  have lastProduct (more : Nat) (enough : room ≤ more) :
      readProduct more (back ++ .closeParen :: rest) = .ok (right, .closeParen :: rest) :=
    readProduct_of_operand (last more enough _) rfl
  cases category with
  | operand => cases joins
  | product =>
      have product := readProduct_link joins leftRead (last room le_rfl _) rfl
      exact readEquality_of_sum (readSum_of_product product rfl) rfl
  | sum =>
      have firstProduct := readProduct_of_operand leftRead (joins.productSign?_of_sum _)
      exact readEquality_of_sum
        (readSum_link joins firstProduct (lastProduct room le_rfl) rfl) rfl
  | equality =>
      have firstProduct := readProduct_of_operand leftRead (joins.productSign?_of_equality _)
      have firstSum := readSum_of_product firstProduct (joins.sumSign?_of_equality _)
      have lastSum := readSum_of_product (lastProduct (room + 1) (Nat.le_succ room)) rfl
      exact readEquality_compared joins firstSum lastSum

theorem atom_lexeme (value : Value) : Atom value.lexeme (.literal value) := by
  cases value with
  | text content => exact .text content
  | number value => exact .number value
  | flag value => cases value <;> constructor

theorem signs_sign (op : UnaryOp) : Signs op.sign op := by
  cases op <;> constructor

/-- The lexemes of a tree are read back as an operand, if there is room for twice its
height. -/
theorem readOperand_lexemes {expr : Expr} (spellable : expr.Spellable) {room : Nat}
    (enough : 2 * expr.height ≤ room) (rest : List Lexeme) :
    readOperand room (expr.lexemes ++ rest) = .ok (expr, rest) := by
  induction expr generalizing room rest with
  | literal value => exact readOperand_atom (atom_lexeme value) rest
  | var name => exact readOperand_atom (.var spellable.2.1 spellable.2.2) rest
  | unary op operand ih =>
      rw [height] at enough
      obtain ⟨less, rfl⟩ : ∃ less, room = less + 1 := ⟨room - 1, by omega⟩
      rw [lexemes, List.cons_append, readOperand_signed (signs_sign op),
        ih spellable (by omega)]
      rfl
  | binary op left right ihLeft ihRight =>
      -- the parenthesis takes one unit from both sides, the operator one more from the right
      rw [height] at enough
      obtain ⟨less, rfl⟩ : ∃ less, room = less + 1 + 1 := ⟨room - 2, by omega⟩
      have pair := readEquality_pair op less
        (ihLeft spellable.1 (by omega))
        (fun more atLeast => ihRight spellable.2 (by omega)) rest
      have whole : (binary op left right).lexemes ++ rest =
          .openParen :: (left.lexemes ++ op.sign :: (right.lexemes ++ .closeParen :: rest)) := by
        simp [lexemes]
      rw [whole, readOperand_parens, pair]
      rfl

/-- A whole tree is read back, if it is at most half as high as the nesting limit. -/
theorem ofLexemes_lexemes {expr : Expr} (spellable : expr.Spellable)
    (low : 2 * expr.height ≤ maxNesting) : ofLexemes expr.lexemes = .ok expr := by
  have operand := readOperand_lexemes spellable low []
  rw [List.append_nil] at operand
  have sum := readSum_of_product (readProduct_of_operand operand rfl) rfl
  exact ofLexemes_eq_ok_iff.2 (readEquality_of_sum sum rfl)

/-- A tree that is derived from spelled lexemes can be written. -/
theorem Derives.spellable {category : Category} {lexemes : List Lexeme} {expr : Expr}
    (derived : Derives category lexemes expr)
    (spelled : ∀ lexeme ∈ lexemes, ∃ word, lexeme.SpelledAs word) : expr.Spellable := by
  induction derived with
  | atom atom =>
      obtain ⟨word, spelled⟩ := List.forall_mem_singleton.1 spelled
      cases atom with
      | number value =>
          cases spelled with
          | number writes same =>
              rw [Spellable, Value.Spellable, same]
              exact Int.natCast_nonneg _
      | var notTrue notFalse =>
          cases spelled with
          | name isName => exact ⟨isName, notTrue, notFalse⟩
      | _ => trivial
  | parens derived ih =>
      exact ih fun lexeme member => spelled lexeme (by simp [member])
  | signed signs derived ih => exact ih (List.forall_mem_cons.1 spelled).2
  | ofOperand derived ih => exact ih spelled
  | ofProduct derived ih => exact ih spelled
  | ofSum derived ih => exact ih spelled
  | productLink first joins last ihFirst ihLast =>
      rw [List.forall_mem_append, List.forall_mem_cons] at spelled
      exact ⟨ihFirst spelled.1, ihLast spelled.2.2⟩
  | sumLink first joins last ihFirst ihLast =>
      rw [List.forall_mem_append, List.forall_mem_cons] at spelled
      exact ⟨ihFirst spelled.1, ihLast spelled.2.2⟩
  | compared first joins last ihFirst ihLast =>
      rw [List.forall_mem_append, List.forall_mem_cons] at spelled
      exact ⟨ihFirst spelled.1, ihLast spelled.2.2⟩

/-- An expression that is read can be spelled. -/
theorem spellable_of_parse {source : String} {expr : Expr} (read : parse source = .ok expr) :
    expr.Spellable := by
  obtain ⟨lexemes, scanned, whole⟩ := bind_eq_ok_iff.1 read
  exact (derives_of_ofLexemes whole).spellable (Lexeme.exists_spelledAs_of_scan scanned)

/-- A text scans to the lexemes of the expression that it writes. -/
theorem WrittenAs.scan_eq {expr : Expr} {source : String} (written : expr.WrittenAs source) :
    Lexeme.scan source.toList = .ok expr.lexemes := by
  obtain ⟨lead, cs, blank, spaced, whole⟩ := written
  rw [whole, Lexeme.scan_append_of_blank blank, spaced.scan_eq]

theorem lexemes_ne_nil (expr : Expr) : expr.lexemes ≠ [] := by
  cases expr <;> exact List.cons_ne_nil _ _

theorem exists_spelledAs_lexeme {value : Value} (spellable : value.Spellable) :
    ∃ word, value.lexeme.SpelledAs word := by
  cases value with
  | text content => exact ⟨_, .text (.inl rfl) content⟩
  | number value =>
      exact ⟨_, .number (Text.writes_toDigits _) (Int.toNat_of_nonneg spellable).symm⟩
  | flag value =>
      cases value
      · exact ⟨_, .name ⟨⟨'f', rfl, rfl⟩, List.all_eq_true.1 rfl⟩⟩
      · exact ⟨_, .name ⟨⟨'t', rfl, rfl⟩, List.all_eq_true.1 rfl⟩⟩

/-- The lexemes of a spellable expression can be spelled. -/
theorem exists_spelledAs_lexemes {expr : Expr} (spellable : expr.Spellable) :
    ∀ lexeme ∈ expr.lexemes, ∃ word, lexeme.SpelledAs word := by
  induction expr with
  | literal value => exact List.forall_mem_singleton.2 (exists_spelledAs_lexeme spellable)
  | var name => exact List.forall_mem_singleton.2 ⟨_, .name spellable.1⟩
  | unary op operand ih =>
      have sign : ∃ word, op.sign.SpelledAs word := by cases op <;> exact ⟨_, by constructor⟩
      exact List.forall_mem_cons.2 ⟨sign, ih spellable⟩
  | binary op left right ihLeft ihRight =>
      have sign : ∃ word, op.sign.SpelledAs word := by cases op <;> exact ⟨_, by constructor⟩
      simp only [lexemes, List.forall_mem_cons, List.forall_mem_append]
      exact ⟨⟨_, .openParen⟩, ihLeft spellable.1, sign, ihRight spellable.2, ⟨_, .closeParen⟩,
        List.forall_mem_nil _⟩

/-- Every tree that can be written has a text, and if it is at most 128 high, it is read back
from all of its texts, in whatever way they are spelled and spaced.  The trees that are read can
all be written. -/
theorem parse_writtenAs (expr : Expr) :
    (expr.Spellable → ∃ source, expr.WrittenAs source) ∧
      (expr.Spellable → expr.height ≤ 128 →
        ∀ source, expr.WrittenAs source → parse source = .ok expr) ∧
      ∀ source, parse source = .ok expr → expr.Spellable := by
  refine ⟨?_, ?_, ?_⟩
  · intro spellable
    obtain ⟨cs, spaced⟩ :=
      Lexeme.exists_spacedAs (exists_spelledAs_lexemes spellable) (lexemes_ne_nil expr)
    exact ⟨String.ofList cs, [], cs, Text.isBlankText_nil, spaced, String.toList_ofList⟩
  · intro spellable low source written
    have half : 2 * expr.height ≤ maxNesting := by
      rw [maxNesting]
      omega
    rw [parse, written.scan_eq]
    exact ofLexemes_lexemes spellable half
  · intro source read
    exact spellable_of_parse read

/-- A comparison of a negated number with a joined text. -/
def noteTest : Expr :=
  .binary .notEqual (.unary .negate (.literal (.number 7)))
    (.binary .add (.var "$x") (.literal (.text "it's \\")))

/-- The comparison in writing, with blanks of several kinds. -/
def noteSource : String := "\u2003(\t- 007 !==\u00a0( $x + 'it\\'s \\\\' ) )\n"

theorem parse_writtenAs_noteTest :
    (noteTest.Spellable ∧ noteTest.height ≤ 128 ∧ noteTest.WrittenAs noteSource) ∧
      parse noteSource = .ok noteTest := by
  have spellable : noteTest.Spellable := by
    have isName : IsName "$x" := ⟨⟨'$', rfl, rfl⟩, List.all_eq_true.1 rfl⟩
    exact ⟨show (0 : Int) ≤ 7 by decide, ⟨isName, by decide, by decide⟩, trivial⟩
  have low : noteTest.height ≤ 128 := by decide
  have written : noteTest.WrittenAs noteSource := by
    have blank (c : Char) (isBlank : Text.isBlank c = true) : Text.IsBlankText [c] :=
      List.forall_mem_singleton.2 isBlank
    have spaced (c : Char) (isBlank : Text.isBlank c = true) {lexeme : Lexeme}
        {lexemes : List Lexeme} {word cs : List Char} (spelled : lexeme.SpelledAs word)
        (more : Lexeme.SpacedAs lexemes cs) :
        Lexeme.SpacedAs (lexeme :: lexemes) (word ++ ([c] ++ cs)) :=
      .next spelled (List.cons_ne_nil _ _) (blank c isBlank) more
    have seven : Lexeme.SpelledAs (.number 7) ['0', '0', '7'] := .number ⟨2, rfl⟩ rfl
    exact ⟨['\u2003'], _, blank _ rfl,
      spaced '\t' rfl .openParen <| spaced ' ' rfl .minus <| spaced ' ' rfl seven <|
        spaced '\u00a0' rfl .strictlyNotEqual <| spaced ' ' rfl .openParen <|
        spaced ' ' rfl (.name spellable.2.1.1) <| spaced ' ' rfl .plus <|
        spaced ' ' rfl (.text (.inl rfl) _) <| spaced ' ' rfl .closeParen <|
        .last .closeParen (blank '\n' rfl), rfl⟩
  exact ⟨⟨spellable, low, written⟩, (parse_writtenAs noteTest).2.1 spellable low _ written⟩

end Expr
end Script
end Pagelet
