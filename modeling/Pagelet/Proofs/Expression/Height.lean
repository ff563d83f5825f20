import Mathlib.Tactic.Ring
import Pagelet.Proofs.Expression.Climb
import Pagelet.Proofs.Expression.Completeness
import Pagelet.Proofs.Expression.Spelling

/-!
# How high the trees get that are read

The room bounds how deep a reader goes, not how high a tree grows: once a chain of
links or a pair of parentheses ends, the room it took is free again, while the
links that follow are put on top of the tree that is already there.  With room
`r` an equality is at most `(r + 1) ^ 2` high.  The towers below have exactly this
height: each storey takes one unit of room for its parentheses and puts every link
it still has room for on top of the storey inside.
-/

namespace Pagelet
namespace Script
namespace Expr

theorem square_succ (room : Nat) : (room + 1) ^ 2 = room ^ 2 + 2 * room + 1 := by
  ring

/-- How high a tree gets that is read with this room. -/
structure HeightAt (room : Nat) : Prop where
  operand {lexemes rest : List Lexeme} {expr : Expr}
    (read : readOperand room lexemes = .ok (expr, rest)) : expr.height ≤ room ^ 2
  productLinks {lexemes rest : List Lexeme} {left expr : Expr}
    (read : readProductLinks room left lexemes = .ok (expr, rest)) :
    expr.height ≤ max left.height (room ^ 2) + room
  sumLinks {lexemes rest : List Lexeme} {left expr : Expr}
    (read : readSumLinks room left lexemes = .ok (expr, rest)) :
    expr.height ≤ max left.height (room ^ 2 + room) + room

namespace HeightAt

variable {room : Nat} {lexemes rest : List Lexeme} {expr : Expr}

/-- A product is at most as high as its operands may be, and a link higher for each unit of room. -/
theorem product (bound : HeightAt room) (read : readProduct room lexemes = .ok (expr, rest)) :
    expr.height ≤ room ^ 2 + room := by
  obtain ⟨first, behind, readFirst, readMore⟩ := readProduct_eq_ok read
  have first_le := bound.operand readFirst
  have whole_le := bound.productLinks readMore
  omega

theorem sum (bound : HeightAt room) (read : readSum room lexemes = .ok (expr, rest)) :
    expr.height ≤ room ^ 2 + 2 * room := by
  obtain ⟨first, behind, readFirst, readMore⟩ := readSum_eq_ok read
  have first_le := bound.product readFirst
  have whole_le := bound.sumLinks readMore
  omega

/-- A comparison is one higher than the sums at its sides. -/
theorem equality (bound : HeightAt room) (read : readEquality room lexemes = .ok (expr, rest)) :
    expr.height ≤ (room + 1) ^ 2 := by
  have square := square_succ room
  rcases readEquality_eq_ok read with
    readAlone | ⟨sign, op, inner, left, right, joins, readLeft, readRight, rfl⟩
  · have alone_le := bound.sum readAlone
    omega
  · have left_le := bound.sum readLeft
    have right_le := bound.sum readRight
    rw [height]
    omega

end HeightAt

/-- The bounds hold for every room, by induction on the room. -/
theorem heightAt (room : Nat) : HeightAt room := by
  induction room using Nat.strongRecOn with
  | ind room ih =>
    constructor
    case operand =>
      intro lexemes rest expr read
      rcases readOperand_eq_ok read with
        ⟨lexeme, atom, rfl⟩ | ⟨less, sign, op, inner, operand, rfl, signs, rfl, readInner, rfl⟩ |
          ⟨less, inner, rfl, rfl, readInner⟩
      · cases atom <;> exact Nat.zero_le _
      · have inner_le := (ih less (Nat.lt_succ_self less)).operand readInner
        have square := square_succ less
        rw [height]
        omega
      · exact (ih less (Nat.lt_succ_self less)).equality readInner
    case productLinks =>
      intro lexemes rest left expr read
      rcases readProductLinks_eq_ok read with
        ⟨rfl, rfl⟩ |
          ⟨less, sign, op, inner, right, behind, rfl, joins, rfl, readRight, readMore⟩
      · omega
      · -- the link goes on top of the tree at its left, however high that is by now
        have right_le := (ih less (Nat.lt_succ_self less)).operand readRight
        have whole_le := (ih less (Nat.lt_succ_self less)).productLinks readMore
        have square := square_succ less
        rw [height] at whole_le
        omega
    case sumLinks =>
      intro lexemes rest left expr read
      rcases readSumLinks_eq_ok read with
        ⟨rfl, rfl⟩ |
          ⟨less, sign, op, inner, right, behind, rfl, joins, rfl, readRight, readMore⟩
      · omega
      · have right_le := (ih less (Nat.lt_succ_self less)).product readRight
        have whole_le := (ih less (Nat.lt_succ_self less)).sumLinks readMore
        have square := square_succ less
        rw [height] at whole_le
        omega

/-- A tree that is read from a list of lexemes is at most `257 ^ 2` high. -/
theorem height_le_of_ofLexemes {lexemes : List Lexeme} {expr : Expr}
    (whole : ofLexemes lexemes = .ok expr) : expr.height ≤ (maxNesting + 1) ^ 2 :=
  (heightAt maxNesting).equality (ofLexemes_eq_ok_iff.1 whole)

/-- Further links, all with the same sign and the operand `x`. -/
def links (sign : Lexeme) : Nat → List Lexeme
  | 0 => []
  | count + 1 => sign :: .name "x" :: links sign count

/-- A tree with further links on top of it. -/
def chain (op : BinaryOp) : Nat → Expr → Expr
  | 0, left => left
  | count + 1, left => chain op count (.binary op left (.var "x"))

/-- Each link of a chain makes the tree one higher. -/
theorem height_chain (op : BinaryOp) (count : Nat) (left : Expr) :
    (chain op count left).height = left.height + count := by
  induction count generalizing left with
  | zero => rfl
  | succ count ih =>
      rw [chain, ih, height, height]
      omega

theorem readOperand_x (room : Nat) (rest : List Lexeme) :
    readOperand room (.name "x" :: rest) = .ok (.var "x", rest) :=
  readOperand_atom (.var (by decide) (by decide)) rest

/-- A chain of factors is read link by link, as far as the room goes. -/
theorem readProductLinks_links {room count : Nat} {rest : List Lexeme} (left : Expr)
    (fits : count ≤ room) (ends : productSign? rest = none) :
    readProductLinks room left (links .star count ++ rest) = .ok (chain .mul count left, rest) := by
  induction count generalizing room left with
  | zero => exact readProductLinks_done ends
  | succ count ih =>
      obtain ⟨less, rfl⟩ : ∃ less, room = less + 1 := ⟨room - 1, by omega⟩
      rw [links, List.cons_append, List.cons_append, readProductLinks_link .star, readOperand_x]
      exact ih _ (by omega)

theorem readSumLinks_links {room count : Nat} {rest : List Lexeme} (left : Expr)
    (fits : count ≤ room) (productEnds : productSign? rest = none)
    (ends : sumSign? rest = none) :
    readSumLinks room left (links .plus count ++ rest) = .ok (chain .add count left, rest) := by
  induction count generalizing room left with
  | zero => exact readSumLinks_done ends
  | succ count ih =>
      obtain ⟨less, rfl⟩ : ∃ less, room = less + 1 := ⟨room - 1, by omega⟩
      have alone : productSign? (links .plus count ++ rest) = none := by
        cases count with
        | zero => exact productEnds
        | succ count => rfl
      have right : readProduct less (.name "x" :: (links .plus count ++ rest)) =
          .ok (.var "x", links .plus count ++ rest) := by
        rw [readProduct, productOf, readOperand_x]
        exact readProductLinks_done alone
      rw [links, List.cons_append, List.cons_append, readSumLinks_link .plus, right]
      exact ih _ (by omega)

/-! ## Towers -/

/-- An operand with further links of a product, of a sum, and a comparison on top
of it. -/
def storey (products sums : Nat) (operand : List Lexeme) : List Lexeme :=
  operand ++ (links .star products ++ (links .plus sums ++ [.equal, .name "x"]))

/-- The tree of a storey. -/
def storeyTree (products sums : Nat) (operand : Expr) : Expr :=
  .binary .equal (chain .add sums (chain .mul products operand)) (.var "x")

/-- Storeys in parentheses, one inside the other, all with as many links as there
is room for. -/
def tower : Nat → List Lexeme
  | 0 => [.name "x"]
  | room + 1 => .openParen :: storey room room (tower room) ++ [.closeParen]

/-- The tree of a tower. -/
def towerTree : Nat → Expr
  | 0 => .var "x"
  | room + 1 => storeyTree room room (towerTree room)

theorem height_storeyTree (products sums : Nat) (operand : Expr) :
    (storeyTree products sums operand).height = operand.height + products + sums + 1 := by
  rw [storeyTree, height, height_chain, height_chain, height]
  omega

/-- A tower of storeys is as high as the bound allows. -/
theorem height_towerTree (room : Nat) : (towerTree room).height = room ^ 2 := by
  induction room with
  | zero => rfl
  | succ room ih =>
      rw [towerTree, height_storeyTree, ih, square_succ]
      omega

/-- A storey is read if its chains fit in the room. -/
theorem readEquality_storey {room products sums : Nat} {operand rest : List Lexeme}
    {tree : Expr} (productsFit : products ≤ room) (sumsFit : sums ≤ room)
    (read : ∀ rest, readOperand room (operand ++ rest) = .ok (tree, rest))
    (productEnds : productSign? rest = none) (sumEnds : sumSign? rest = none) :
    readEquality room (storey products sums operand ++ rest) =
      .ok (storeyTree products sums tree, rest) := by
  have product : readProduct room (storey products sums operand ++ rest) =
      .ok (chain .mul products tree, links .plus sums ++ (.equal :: .name "x" :: rest)) := by
    rw [storey, List.append_assoc, readProduct, productOf, read, List.append_assoc,
      List.append_assoc]
    refine readProductLinks_links tree productsFit ?_
    cases sums <;> rfl
  have sum : readSum room (storey products sums operand ++ rest) =
      .ok (chain .add sums (chain .mul products tree), .equal :: .name "x" :: rest) := by
    rw [readSum, sumOf, product]
    exact readSumLinks_links _ sumsFit rfl rfl
  have last : readSum room (.name "x" :: rest) = .ok (.var "x", rest) := by
    rw [readSum, sumOf, readProduct, productOf, readOperand_x]
    simp only [bind, Except.bind, readProductLinks_done productEnds, readSumLinks_done sumEnds]
  rw [readEquality, equalityOf, sum]
  simp only [bind, Except.bind, comparison?, last]
  rfl

/-- A tower is read back, whatever stands behind it. -/
theorem readOperand_tower (room : Nat) (rest : List Lexeme) :
    readOperand room (tower room ++ rest) = .ok (towerTree room, rest) := by
  induction room generalizing rest with
  | zero => exact readOperand_x 0 rest
  | succ room ih =>
      rw [tower, show (Lexeme.openParen :: storey room room (tower room) ++ [.closeParen]) ++ rest =
          .openParen :: (storey room room (tower room) ++ .closeParen :: rest) by simp,
        readOperand_parens,
        readEquality_storey (Nat.le_refl room) (Nat.le_refl room) ih rfl rfl]
      rfl

/-- A lexeme that towers are built of. -/
def isStone (lexeme : Lexeme) : Bool :=
  lexeme = .name "x" || lexeme = .closeParen || isSign lexeme

theorem legible_of_isStone {lexeme : Lexeme} (stone : isStone lexeme = true) :
    lexeme.Legible := by
  cases lexeme with
  | name spelling =>
      obtain rfl : spelling = "x" := by simpa [isStone, isSign] using stone
      exact ⟨'x', [], rfl, rfl, fun rest => rfl⟩
  | number value => simp [isStone, isSign] at stone
  | text content => simp [isStone, isSign] at stone
  | plus => exact ⟨'+', [], rfl, rfl, fun rest => rfl⟩
  | minus => exact ⟨'-', [], rfl, rfl, fun rest => rfl⟩
  | star => exact ⟨'*', [], rfl, rfl, fun rest => rfl⟩
  | slash => exact ⟨'/', [], rfl, rfl, fun rest => rfl⟩
  | bang => exact ⟨'!', [], rfl, rfl, fun rest => rfl⟩
  | openParen => exact ⟨'(', [], rfl, rfl, fun rest => rfl⟩
  | closeParen => exact ⟨')', [], rfl, rfl, fun rest => rfl⟩
  | equal => exact ⟨'=', ['='], rfl, rfl, fun rest => rfl⟩
  | notEqual => exact ⟨'!', ['='], rfl, rfl, fun rest => rfl⟩

theorem all_isStone_links {sign : Lexeme} (signs : isSign sign = true) (count : Nat) :
    (links sign count).all isStone = true := by
  induction count with
  | zero => rfl
  | succ count ih => simp [links, isStone, signs, ih]

theorem all_isStone_storey (products sums : Nat) {operand : List Lexeme}
    (stones : operand.all isStone = true) :
    (storey products sums operand).all isStone = true := by
  rw [storey, List.all_append, List.all_append, List.all_append, stones,
    all_isStone_links rfl, all_isStone_links rfl]
  rfl

theorem all_isStone_tower (room : Nat) : (tower room).all isStone = true := by
  induction room with
  | zero => rfl
  | succ room ih =>
      rw [tower, List.all_append, List.all_cons, all_isStone_storey room room ih]
      rfl

/-- The text that writes a storey. -/
def storeyText (products sums : Nat) (operand : List Lexeme) : String :=
  String.ofList (Lexeme.spaced (storey products sums operand))

/-- The text of a storey scans to its lexemes. -/
theorem scan_storeyText (products sums : Nat) {operand : List Lexeme}
    (stones : operand.all isStone = true) :
    Lexeme.scan (storeyText products sums operand).toList =
      .ok (storey products sums operand) := by
  rw [storeyText, String.toList_ofList]
  apply Lexeme.scan_spaced
  intro lexeme member
  exact legible_of_isStone (List.all_eq_true.1 (all_isStone_storey products sums stones) _ member)

/-- The text of a storey is read to its tree. -/
theorem parse_storeyText {products sums : Nat} {operand : List Lexeme} {tree : Expr}
    (stones : operand.all isStone = true) (productsFit : products ≤ maxNesting)
    (sumsFit : sums ≤ maxNesting)
    (read : ∀ rest, readOperand maxNesting (operand ++ rest) = .ok (tree, rest)) :
    parse (storeyText products sums operand) = .ok (storeyTree products sums tree) := by
  rw [parse, scan_storeyText products sums stones]
  refine ofLexemes_eq_ok_iff.2 ?_
  rw [← List.append_nil (storey products sums operand)]
  exact readEquality_storey productsFit sumsFit read rfl rfl

/-- The highest tower there is room for. -/
theorem parse_towerText :
    parse (storeyText maxNesting maxNesting (tower maxNesting)) =
      .ok (towerTree (maxNesting + 1)) :=
  parse_storeyText (all_isStone_tower maxNesting) (Nat.le_refl _) (Nat.le_refl _)
    (readOperand_tower maxNesting)

/-- A sum with as many links as there is room for, and a comparison on top. -/
theorem parse_comparedSum :
    parse (storeyText 0 maxNesting [.name "x"]) = .ok (storeyTree 0 maxNesting (.var "x")) :=
  parse_storeyText rfl (Nat.zero_le _) (Nat.le_refl _) (readOperand_x maxNesting)

/-- The tree of a text keeps within the nesting limit exactly when the pass over the
lexemes does, and it always does when there are no more signs than the limit.  In any
case the tree is at most `257 ^ 2` high, and there is a text whose tree is as high as that. -/
theorem height_le_maxNesting_iff {source : String} {lexemes : List Lexeme} {expr : Expr}
    (scanned : Lexeme.scan source.toList = .ok lexemes) (read : parse source = .ok expr) :
    (expr.height ≤ maxNesting ↔ climbHeight lexemes ≤ maxNesting) ∧
    (signCount lexemes ≤ maxNesting → expr.height ≤ maxNesting) ∧
    expr.height ≤ (maxNesting + 1) ^ 2 ∧
    ∃ highest tower, parse highest = .ok tower ∧ tower.height = (maxNesting + 1) ^ 2 := by
  rw [parse, scanned] at read
  have derived : Derives .equality lexemes expr := derives_of_ofLexemes read
  refine ⟨?_, ?_, height_le_of_ofLexemes read, _, _, parse_towerText, height_towerTree _⟩
  · rw [derived.climbHeight_eq]
  · intro few
    exact derived.height_le_signCount.trans few

/-- Parentheses take room, but leave no trace in the tree. -/
theorem height_le_maxNesting_signedSum :
    ∃ lexemes expr, Lexeme.scan "-(a + b)".toList = .ok lexemes ∧
      parse "-(a + b)" = .ok expr ∧ climbHeight lexemes = 2 ∧ expr.height ≤ maxNesting := by
  have scanned : Lexeme.scan "-(a + b)".toList =
      .ok [.minus, .openParen, .name "a", .plus, .name "b", .closeParen] := by decide +kernel
  have read : parse "-(a + b)" =
      .ok (.unary .negate (.binary .add (.var "a") (.var "b"))) := by decide +kernel
  exact ⟨_, _, scanned, read, rfl, (height_le_maxNesting_iff scanned read).1.2 (by decide)⟩

/-- A sum of 257 operands, compared with one more, is read to a tree that is higher
than the nesting limit. -/
theorem comparedSum_exceeds_maxNesting :
    ∃ expr, parse (storeyText 0 256 [.name "x"]) = .ok expr ∧ ¬expr.height ≤ maxNesting := by
  refine ⟨_, parse_comparedSum, ?_⟩
  rw [height_storeyTree, height]
  omega

end Expr
end Script
end Pagelet
