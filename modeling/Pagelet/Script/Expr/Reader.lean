import Pagelet.Script.Expr

/-!
# Reading expressions

The grammar, loosest operators first:

* an equality is a sum, or two sums compared by `==` or `!=`;
* a sum is a list of products joined by `+` and `-`, grouped from the left;
* a product is a list of operands joined by `*` and `/`, grouped from the left;
* an operand is a literal, a variable, an equality in parentheses, or another
  operand behind `-` or `!`.

Every reader takes the `room` left for nesting.  A sign before an operand, an
opening parenthesis and each further link of a sum or a product take one unit of
it from what they enclose, and a reader that would need more than there is gives
up.  The room only ever shrinks on the way down, which is why reading ends.
-/

namespace Pagelet
namespace Script
namespace Expr

/-- An expression read from the front of a list of lexemes, and the rest of it. -/
abbrev Reading := Except Fault (Expr × List Lexeme)

/-- The sign that joins two products, if the list begins with one. -/
def sumSign? : List Lexeme → Option (BinaryOp × List Lexeme)
  | .plus :: rest => some (.add, rest)
  | .minus :: rest => some (.sub, rest)
  | _ => none

/-- The sign that joins two operands, if the list begins with one. -/
def productSign? : List Lexeme → Option (BinaryOp × List Lexeme)
  | .star :: rest => some (.mul, rest)
  | .slash :: rest => some (.div, rest)
  | _ => none

/-- The sign that compares two sums, if the list begins with one. -/
def comparison? : List Lexeme → Option (BinaryOp × List Lexeme)
  | .equal :: rest => some (.equal, rest)
  | .notEqual :: rest => some (.notEqual, rest)
  | _ => none

/-- The sign before an operand, if the list begins with one. -/
def operandSign? : List Lexeme → Option (UnaryOp × List Lexeme)
  | .minus :: rest => some (.negate, rest)
  | .bang :: rest => some (.not, rest)
  | _ => none

/-- A name as an operand: two names are literals, every other is a variable. -/
def ofName (spelling : String) : Expr :=
  if spelling = "true" then literal (.flag true)
  else if spelling = "false" then literal (.flag false)
  else var spelling

/-- Consumes the closing parenthesis that is due. -/
def closeParen : List Lexeme → Except Fault (List Lexeme)
  | .closeParen :: rest => .ok rest
  | other :: _ => .error (.unexpectedLexeme other)
  | [] => .error .unexpectedEnd

/-- Reads a product from readers for an operand and for further links. -/
def productOf (operand : List Lexeme → Reading) (links : Expr → List Lexeme → Reading)
    (lexemes : List Lexeme) : Reading := do
  let (first, rest) ← operand lexemes
  links first rest

/-- Reads a sum from readers for a product and for further links. -/
def sumOf (product : List Lexeme → Reading) (links : Expr → List Lexeme → Reading)
    (lexemes : List Lexeme) : Reading := do
  let (first, rest) ← product lexemes
  links first rest

/-- Reads a sum, or two sums compared. -/
def equalityOf (sum : List Lexeme → Reading) (lexemes : List Lexeme) : Reading := do
  let (left, rest) ← sum lexemes
  match comparison? rest with
  | none => .ok (left, rest)
  | some (op, rest) =>
      let (right, rest) ← sum rest
      .ok (binary op left right, rest)

mutual

/-- Reads an operand with the signs before it. -/
def readOperand (room : Nat) (lexemes : List Lexeme) : Reading :=
  match operandSign? lexemes with
  | some (op, rest) =>
      match room with
      | 0 => .error .tooDeep
      | room + 1 => do
          let (operand, rest) ← readOperand room rest
          .ok (unary op operand, rest)
  | none =>
      match lexemes with
      | .number value :: rest => .ok (literal (.number value), rest)
      | .text content :: rest => .ok (literal (.text content), rest)
      | .name spelling :: rest => .ok (ofName spelling, rest)
      | .openParen :: rest =>
          match room with
          | 0 => .error .tooDeep
          | room + 1 => do
              let product := productOf (readOperand room) (readProductLinks room)
              let (inner, rest) ← equalityOf (sumOf product (readSumLinks room)) rest
              let rest ← closeParen rest
              .ok (inner, rest)
      | other :: _ => .error (.unexpectedLexeme other)
      | [] => .error .unexpectedEnd
termination_by structural room

/-- Reads the further links of a product whose beginning is `left`. -/
def readProductLinks (room : Nat) (left : Expr) (lexemes : List Lexeme) : Reading :=
  match productSign? lexemes with
  | none => .ok (left, lexemes)
  | some (op, rest) =>
      match room with
      | 0 => .error .tooDeep
      | room + 1 => do
          let (right, rest) ← readOperand room rest
          readProductLinks room (binary op left right) rest
termination_by structural room

/-- Reads the further links of a sum whose beginning is `left`. -/
def readSumLinks (room : Nat) (left : Expr) (lexemes : List Lexeme) : Reading :=
  match sumSign? lexemes with
  | none => .ok (left, lexemes)
  | some (op, rest) =>
      match room with
      | 0 => .error .tooDeep
      | room + 1 => do
          let (right, rest) ← productOf (readOperand room) (readProductLinks room) rest
          readSumLinks room (binary op left right) rest
termination_by structural room

end

/-- Reads operands joined by `*` and `/`. -/
def readProduct (room : Nat) : List Lexeme → Reading :=
  productOf (readOperand room) (readProductLinks room)

/-- Reads products joined by `+` and `-`. -/
def readSum (room : Nat) : List Lexeme → Reading :=
  sumOf (readProduct room) (readSumLinks room)

/-- Reads a sum, or two sums compared, with this much room for nesting. -/
def readEquality (room : Nat) : List Lexeme → Reading :=
  equalityOf (readSum room)

/-- The deepest nesting that is read. -/
def maxNesting : Nat := 256

/-- The expression that a whole list of lexemes writes. -/
def ofLexemes (lexemes : List Lexeme) : Except Fault Expr := do
  match ← readEquality maxNesting lexemes with
  | (expression, []) => .ok expression
  | (_, extra :: _) => .error (.unexpectedLexeme extra)

/-- The expression that a text writes. -/
def parse (source : String) : Except Fault Expr := do
  ofLexemes (← Lexeme.scan source.toList)

end Expr
end Script
end Pagelet
