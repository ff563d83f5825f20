import Pagelet.Script.Expr.Reader

/-!
# The grammar of expressions

The grammar is a relation between lists of lexemes and trees, written down
without regard to how a list is read.  A derivation of a list is one of the whole
list: nothing is left over.  The four categories are nested by precedence, sums
and products are grouped from the left, a comparison has exactly two sides, and
parentheses leave no trace in the tree.
-/

namespace Pagelet
namespace Script
namespace Expr

/-- The categories of the grammar, loosest first. -/
inductive Category
  | equality
  | sum
  | product
  | operand
deriving DecidableEq, Repr

/-- A lexeme that is an operand of its own. -/
inductive Atom : Lexeme → Expr → Prop
  | number (value : Int64) : Atom (.number value) (.literal (.number value))
  | text (content : String) : Atom (.text content) (.literal (.text content))
  | true : Atom (.name "true") (.literal (.flag true))
  | false : Atom (.name "false") (.literal (.flag false))
  | var {spelling : String} (notTrue : spelling ≠ "true") (notFalse : spelling ≠ "false") :
      Atom (.name spelling) (.var spelling)

/-- The signs that stand before an operand. -/
inductive Signs : Lexeme → UnaryOp → Prop
  | minus : Signs .minus .negate
  | bang : Signs .bang .not

/-- The signs that join the parts of a category. -/
inductive Joins : Category → Lexeme → BinaryOp → Prop
  | star : Joins .product .star .mul
  | slash : Joins .product .slash .div
  | plus : Joins .sum .plus .add
  | minus : Joins .sum .minus .sub
  | equal : Joins .equality .equal .equal
  | notEqual : Joins .equality .notEqual .notEqual

/-- The whole list of lexemes belongs to the category and writes the tree. -/
inductive Derives : Category → List Lexeme → Expr → Prop
  | atom {lexeme : Lexeme} {expr : Expr} (atom : Atom lexeme expr) :
      Derives .operand [lexeme] expr
  | parens {inner : List Lexeme} {expr : Expr} (derived : Derives .equality inner expr) :
      Derives .operand (.openParen :: inner ++ [.closeParen]) expr
  | signed {sign : Lexeme} {op : UnaryOp} {lexemes : List Lexeme} {operand : Expr}
      (signs : Signs sign op) (derived : Derives .operand lexemes operand) :
      Derives .operand (sign :: lexemes) (.unary op operand)
  | ofOperand {lexemes : List Lexeme} {expr : Expr} (derived : Derives .operand lexemes expr) :
      Derives .product lexemes expr
  | productLink {front back : List Lexeme} {sign : Lexeme} {op : BinaryOp} {left right : Expr}
      (first : Derives .product front left) (joins : Joins .product sign op)
      (last : Derives .operand back right) :
      Derives .product (front ++ sign :: back) (.binary op left right)
  | ofProduct {lexemes : List Lexeme} {expr : Expr} (derived : Derives .product lexemes expr) :
      Derives .sum lexemes expr
  | sumLink {front back : List Lexeme} {sign : Lexeme} {op : BinaryOp} {left right : Expr}
      (first : Derives .sum front left) (joins : Joins .sum sign op)
      (last : Derives .product back right) :
      Derives .sum (front ++ sign :: back) (.binary op left right)
  | ofSum {lexemes : List Lexeme} {expr : Expr} (derived : Derives .sum lexemes expr) :
      Derives .equality lexemes expr
  | compared {front back : List Lexeme} {sign : Lexeme} {op : BinaryOp} {left right : Expr}
      (first : Derives .sum front left) (joins : Joins .equality sign op)
      (last : Derives .sum back right) :
      Derives .equality (front ++ sign :: back) (.binary op left right)

/-- Whether the lexeme is an operator or an opening parenthesis. -/
def isSign : Lexeme → Bool
  | .plus | .minus | .star | .slash | .bang | .equal | .notEqual | .openParen => true
  | _ => false

/-- How many operators and opening parentheses a list holds. -/
def signCount (lexemes : List Lexeme) : Nat :=
  lexemes.countP isSign

@[simp]
theorem signCount_append (front back : List Lexeme) :
    signCount (front ++ back) = signCount front + signCount back :=
  List.countP_append

theorem signCount_cons_of_isSign {sign : Lexeme} (isSign : isSign sign = true)
    (lexemes : List Lexeme) : signCount (sign :: lexemes) = signCount lexemes + 1 :=
  List.countP_cons_of_pos isSign

theorem signCount_parens (inner : List Lexeme) :
    signCount (.openParen :: inner ++ [.closeParen]) = signCount inner + 1 := by
  rw [signCount_append, signCount_cons_of_isSign rfl]
  rfl

/-- A link counts as one sign. -/
theorem signCount_link {sign : Lexeme} (isSign : isSign sign = true) (front back : List Lexeme) :
    signCount (front ++ sign :: back) = signCount front + signCount back + 1 := by
  rw [signCount_append, signCount_cons_of_isSign isSign, Nat.add_assoc]

theorem Signs.isSign {sign : Lexeme} {op : UnaryOp} (signs : Signs sign op) :
    isSign sign = true := by
  cases signs <;> rfl

theorem Joins.isSign {category : Category} {sign : Lexeme} {op : BinaryOp}
    (joins : Joins category sign op) : isSign sign = true := by
  cases joins <;> rfl

/-- Every node of a tree is written by a sign of its own. -/
theorem Derives.height_le_signCount {category : Category} {lexemes : List Lexeme} {expr : Expr}
    (derived : Derives category lexemes expr) : expr.height ≤ signCount lexemes := by
  induction derived with
  | atom atom => cases atom <;> exact Nat.zero_le _
  | parens derived ih =>
      rw [signCount_parens]
      exact Nat.le_succ_of_le ih
  | signed signs derived ih =>
      rw [signCount_cons_of_isSign signs.isSign]
      exact Nat.succ_le_succ ih
  | ofOperand derived ih => exact ih
  | ofProduct derived ih => exact ih
  | ofSum derived ih => exact ih
  | productLink first joins last ihFirst ihLast =>
      rw [signCount_link joins.isSign, height]
      omega
  | sumLink first joins last ihFirst ihLast =>
      rw [signCount_link joins.isSign, height]
      omega
  | compared first joins last ihFirst ihLast =>
      rw [signCount_link joins.isSign, height]
      omega

end Expr
end Script
end Pagelet
