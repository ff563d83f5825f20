import Pagelet.Script.Lexeme
import Std.Data.ExtTreeMap

/-!
# Values and arithmetic

Scripts compute with texts, 64-bit integers and truth values.  Arithmetic is
exact: a result outside the 64-bit range is a fault, never a wrapped number.
-/

namespace Pagelet
namespace Script

/-- What a script variable holds. -/
inductive Value
  | text (content : String)
  | number (value : Int64)
  | flag (value : Bool)
deriving DecidableEq, Repr

/-- The value of a variable that was never set: the empty text. -/
instance : Inhabited Value := ⟨.text ""⟩

/-- The variables of a script, by name. -/
abbrev Variables := Std.ExtTreeMap String Value compare

namespace Value

/-- A value that is neither the empty text, nor zero, nor false. -/
def truthy : Value → Bool
  | text content => content ≠ ""
  | number value => value ≠ 0
  | flag value => value

/-- The value as text. -/
def shown : Value → String
  | text content => content
  | number value => toString value.toInt
  | flag true => "true"
  | flag false => "false"

/-- The value as a number: flags count as zero and one, blank text as zero, and
other text is read as a decimal numeral. -/
def toNumber : Value → Except Fault Int64
  | number value => .ok value
  | flag true => .ok 1
  | flag false => .ok 0
  | text content =>
      match Text.trim content.toList with
      | [] => .ok 0
      | numeral =>
          match Text.int64? numeral with
          | some value => .ok value
          | none => .error (.notANumber content)

/-- The number with this exact value, or an overflow. -/
def ofInt (exact : Int) : Except Fault Value :=
  match Text.exactInt64? exact with
  | some value => .ok (number value)
  | none => .error .overflow

/-- The value with its sign changed. -/
def negate (operand : Value) : Except Fault Value := do
  let value ← operand.toNumber
  ofInt (-value.toInt)

/-- An exact integer operation on the numbers of two values, left before right. -/
def arithmetic (operation : Int → Int → Int) (left right : Value) : Except Fault Value := do
  let first ← left.toNumber
  let second ← right.toNumber
  ofInt (operation first.toInt second.toInt)

/-- The sum of two values; when either is text, their texts are joined. -/
def add : Value → Value → Except Fault Value
  | text content, right => .ok (text (content ++ right.shown))
  | left, text content => .ok (text (left.shown ++ content))
  | left, right => arithmetic (· + ·) left right

/-- The difference of two values. -/
def sub : Value → Value → Except Fault Value :=
  arithmetic (· - ·)

/-- The product of two values. -/
def mul : Value → Value → Except Fault Value :=
  arithmetic (· * ·)

/-- The quotient of two values, truncated toward zero.  The divisor is read
first, so that a division by zero is reported before any fault on the left. -/
def div (left right : Value) : Except Fault Value := do
  let divisor ← right.toNumber
  if divisor = 0 then .error .divisionByZero else arithmetic Int.tdiv left right

end Value

end Script
end Pagelet
