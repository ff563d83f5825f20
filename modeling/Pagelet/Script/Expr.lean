import Pagelet.Script.Value

/-!
# Expressions

Expression trees and their evaluation against a table of variables.  Operands
are evaluated left before right, and the first fault ends the evaluation.
-/

namespace Pagelet
namespace Script

/-- The operators that stand before their operand. -/
inductive UnaryOp
  | negate
  | not
deriving DecidableEq, Repr

/-- The operators that stand between their operands. -/
inductive BinaryOp
  | add
  | sub
  | mul
  | div
  | equal
  | notEqual
deriving DecidableEq, Repr

/-- An expression tree; parentheses leave no trace in it. -/
inductive Expr
  | literal (value : Value)
  | var (name : String)
  | unary (op : UnaryOp) (operand : Expr)
  | binary (op : BinaryOp) (left right : Expr)
deriving DecidableEq, Repr

/-- The effect of a unary operator. -/
def UnaryOp.apply : UnaryOp → Value → Except Fault Value
  | negate, operand => operand.negate
  | not, operand => .ok (.flag !operand.truthy)

/-- The effect of a binary operator.  Values of different kinds are never equal. -/
def BinaryOp.apply : BinaryOp → Value → Value → Except Fault Value
  | add, left, right => left.add right
  | sub, left, right => left.sub right
  | mul, left, right => left.mul right
  | div, left, right => left.div right
  | equal, left, right => .ok (.flag (left = right))
  | notEqual, left, right => .ok (.flag (left ≠ right))

/-- The value of a variable; one that was never set reads as the empty text. -/
def Variables.read (bindings : Variables) (name : String) : Value :=
  bindings[name]?.getD default

namespace Expr

/-- The value of an expression. -/
def eval (bindings : Variables) : Expr → Except Fault Value
  | literal value => .ok value
  | var name => .ok (bindings.read name)
  | unary op operand => do
      let value ← operand.eval bindings
      op.apply value
  | binary op left right => do
      let first ← left.eval bindings
      let second ← right.eval bindings
      op.apply first second

/-- How many operators lie on the longest path from the root to a leaf. -/
def height : Expr → Nat
  | literal _ => 0
  | var _ => 0
  | unary _ operand => operand.height + 1
  | binary _ left right => max left.height right.height + 1

end Expr

end Script
end Pagelet
