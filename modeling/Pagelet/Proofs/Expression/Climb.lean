import Pagelet.Proofs.Expression.Grammar

/-!
# The height of a tree, read off its lexemes

One pass over a list of lexemes finds the height of the tree that the list writes,
without building the tree.  Within each pair of parentheses the pass remembers the
heights of the product, the sum and the side of a comparison that it is in.
-/

namespace Pagelet
namespace Script
namespace Expr

/-- The height of a tree with another one joined to it from the right, if there is
one in front. -/
def joinHeight : Option Nat → Nat → Nat
  | none, right => right
  | some left, right => max left right + 1

/-- The heights at hand within one pair of parentheses. -/
structure Level where
  /-- The left side of the comparison, once its sign has been read. -/
  side : Option Nat := none
  /-- The sum in front of the current product. -/
  sum : Option Nat := none
  /-- The product in front of the operand that is due. -/
  product : Option Nat := none
  /-- How many signs stand before the operand that is due. -/
  signs : Nat := 0
  /-- The current product, unless an operand is due. -/
  done : Option Nat := none

namespace Level

/-- The level behind one more operand. -/
def operand (level : Level) (height : Nat) : Level :=
  { level with
    product := none, signs := 0, done := some (joinHeight level.product (height + level.signs)) }

/-- The height of the sum so far. -/
def sumHeight (level : Level) : Nat :=
  joinHeight level.sum (level.done.getD 0)

/-- The height of everything so far. -/
def height (level : Level) : Nat :=
  joinHeight level.side level.sumHeight

end Level

/-- Where the pass stands: in a level, with the levels around it. -/
structure Climb where
  level : Level := {}
  outer : List Level := []

namespace Climb

/-- The climb behind one more lexeme. -/
def next (climb : Climb) : Lexeme → Climb
  | .openParen => ⟨{}, climb.level :: climb.outer⟩
  | .closeParen =>
      match climb.outer with
      | [] => climb
      | level :: outer => ⟨level.operand climb.level.height, outer⟩
  | .bang => { climb with level := { climb.level with signs := climb.level.signs + 1 } }
  | .minus =>
      match climb.level.done with
      | none => { climb with level := { climb.level with signs := climb.level.signs + 1 } }
      | some _ => { climb with
          level := { side := climb.level.side, sum := some climb.level.sumHeight } }
  | .plus => { climb with
      level := { side := climb.level.side, sum := some climb.level.sumHeight } }
  | .star | .slash => { climb with
      level := { climb.level with product := climb.level.done, done := none } }
  | .equal | .notEqual => { climb with level := { side := some climb.level.sumHeight } }
  | .number _ | .text _ | .name _ => { climb with level := climb.level.operand 0 }

/-- The climb behind a list of lexemes. -/
def after (climb : Climb) (lexemes : List Lexeme) : Climb :=
  lexemes.foldl next climb

@[simp]
theorem after_cons (climb : Climb) (lexeme : Lexeme) (lexemes : List Lexeme) :
    climb.after (lexeme :: lexemes) = (climb.next lexeme).after lexemes :=
  rfl

@[simp]
theorem after_append (climb : Climb) (front back : List Lexeme) :
    climb.after (front ++ back) = (climb.after front).after back :=
  List.foldl_append

end Climb

/-- The height that one pass over the lexemes finds. -/
def climbHeight (lexemes : List Lexeme) : Nat :=
  (({} : Climb).after lexemes).level.height

/-- What the pass makes of a list of the category whose tree has the height. -/
def Climbs : Category → List Lexeme → Nat → Prop
  | .operand, lexemes, height => ∀ level outer, level.done = none →
      (Climb.mk level outer).after lexemes = ⟨level.operand height, outer⟩
  | .product, lexemes, height => ∀ side sum outer,
      (Climb.mk { side, sum } outer).after lexemes = ⟨{ side, sum, done := some height }, outer⟩
  | .sum, lexemes, height => ∀ side outer, ∃ sum product,
      (Climb.mk { side } outer).after lexemes = ⟨{ side, sum, done := some product }, outer⟩ ∧
        joinHeight sum product = height
  | .equality, lexemes, height => ∀ outer, ∃ level,
      (Climb.mk {} outer).after lexemes = ⟨level, outer⟩ ∧ level.height = height

/-- The pass finds the height of the tree that a list derives. -/
theorem Derives.climbs {category : Category} {lexemes : List Lexeme} {expr : Expr}
    (derived : Derives category lexemes expr) : Climbs category lexemes expr.height := by
  induction derived with
  | atom atom =>
      intro level outer due
      cases atom <;> rfl
  | parens derived ih =>
      intro level outer due
      obtain ⟨inner, behind, height⟩ := ih (level :: outer)
      have opened : (Climb.mk level outer).next .openParen = ⟨{}, level :: outer⟩ := rfl
      rw [List.cons_append, Climb.after_cons, opened, Climb.after_append, behind, ← height]
      rfl
  | @signed sign _ _ operand signs derived ih =>
      -- signs are counted as they come and put on top of their operand when it is there
      rintro ⟨side, sum, product, count, done⟩ outer rfl
      have signed : (Climb.mk { side, sum, product, signs := count } outer).next sign =
          ⟨{ side, sum, product, signs := count + 1 }, outer⟩ := by
        cases signs <;> rfl
      have height : operand.height + (count + 1) = operand.height + 1 + count := by
        omega
      rw [Climb.after_cons, signed, ih _ _ rfl, Level.operand, Level.operand, Expr.height]
      dsimp only
      rw [height]
  | ofOperand derived ih =>
      intro side sum outer
      rw [ih _ _ rfl]
      rfl
  | @productLink _ _ sign _ left right first joins last ihFirst ihLast =>
      intro side sum outer
      have linked : (Climb.mk { side, sum, done := some left.height } outer).next sign =
          ⟨{ side, sum, product := some left.height }, outer⟩ := by
        cases joins <;> rfl
      rw [Climb.after_append, ihFirst, Climb.after_cons, linked, ihLast _ _ rfl]
      rfl
  | ofProduct derived ih =>
      intro side outer
      exact ⟨none, _, ih side none outer, rfl⟩
  | @sumLink _ _ sign _ left right first joins last ihFirst ihLast =>
      intro side outer
      obtain ⟨sum, product, front, height⟩ := ihFirst side outer
      have linked : (Climb.mk { side, sum, done := some product } outer).next sign =
          ⟨{ side, sum := some left.height }, outer⟩ := by
        rw [← height]
        cases joins <;> rfl
      refine ⟨some left.height, right.height, ?_, rfl⟩
      rw [Climb.after_append, front, Climb.after_cons, linked, ihLast]
  | ofSum derived ih =>
      intro outer
      obtain ⟨sum, product, behind, height⟩ := ih none outer
      exact ⟨_, behind, height⟩
  | @compared _ _ sign _ left right first joins last ihFirst ihLast =>
      intro outer
      obtain ⟨sum, product, front, height⟩ := ihFirst none outer
      have linked : (Climb.mk { sum, done := some product } outer).next sign =
          ⟨{ side := some left.height }, outer⟩ := by
        rw [← height]
        cases joins <;> rfl
      obtain ⟨sum, product, behind, height⟩ := ihLast (some left.height) outer
      refine ⟨{ side := some left.height, sum, done := some product }, ?_, ?_⟩
      · rw [Climb.after_append, front, Climb.after_cons, linked, behind]
      · rw [Expr.height, ← height]
        rfl

/-- The pass over the lexemes finds the height of every tree that they derive. -/
theorem Derives.climbHeight_eq {lexemes : List Lexeme} {expr : Expr}
    (derived : Derives .equality lexemes expr) : climbHeight lexemes = expr.height := by
  obtain ⟨level, behind, height⟩ := derived.climbs []
  rw [climbHeight, ← height]
  exact congrArg (fun climb : Climb => climb.level.height) behind

example : climbHeight [.minus, .openParen, .name "a", .plus, .name "b", .closeParen] = 2 :=
  rfl

end Expr
end Script
end Pagelet
