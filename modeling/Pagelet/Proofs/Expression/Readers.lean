import Pagelet.Proofs.Expression.Grammar

/-!
# One step of each reader of expressions

The equations say what a reader does with a list that begins in a given way.  The
inversion lemmas go back: their cases list everything a successful reading can
have consisted of, together with the room that was left for it.
-/

namespace Pagelet
namespace Script
namespace Expr

/-- A sequence of two steps succeeds exactly when both do. -/
theorem bind_eq_ok_iff {α β : Type} {first : Except Fault α} {next : α → Except Fault β}
    {result : β} :
    first >>= next = .ok result ↔ ∃ value, first = .ok value ∧ next value = .ok result := by
  cases first <;> simp [bind, Except.bind]

/-- The signs of a product are those that join factors. -/
theorem productSign?_eq_some_iff {lexemes rest : List Lexeme} {op : BinaryOp} :
    productSign? lexemes = some (op, rest) ↔
      ∃ sign, Joins .product sign op ∧ lexemes = sign :: rest := by
  constructor
  · intro found
    unfold productSign? at found
    split at found <;> cases found
    · exact ⟨_, .star, rfl⟩
    · exact ⟨_, .slash, rfl⟩
  · rintro ⟨sign, joins, rfl⟩
    cases joins <;> rfl

theorem sumSign?_eq_some_iff {lexemes rest : List Lexeme} {op : BinaryOp} :
    sumSign? lexemes = some (op, rest) ↔
      ∃ sign, Joins .sum sign op ∧ lexemes = sign :: rest := by
  constructor
  · intro found
    unfold sumSign? at found
    split at found <;> cases found
    · exact ⟨_, .plus, rfl⟩
    · exact ⟨_, .minus, rfl⟩
  · rintro ⟨sign, joins, rfl⟩
    cases joins <;> rfl

theorem comparison?_eq_some_iff {lexemes rest : List Lexeme} {op : BinaryOp} :
    comparison? lexemes = some (op, rest) ↔
      ∃ sign, Joins .equality sign op ∧ lexemes = sign :: rest := by
  constructor
  · intro found
    unfold comparison? at found
    split at found <;> cases found
    · exact ⟨_, .equal, rfl⟩
    · exact ⟨_, .notEqual, rfl⟩
  · rintro ⟨sign, joins, rfl⟩
    cases joins <;> rfl

/-- The closing parenthesis that is due stands at the front. -/
theorem closeParen_eq_ok_iff {lexemes rest : List Lexeme} :
    closeParen lexemes = .ok rest ↔ lexemes = .closeParen :: rest := by
  constructor
  · intro closed
    unfold closeParen at closed
    split at closed <;> cases closed
    rfl
  · rintro rfl
    rfl

/-- A name is an operand of its own. -/
theorem atom_ofName (spelling : String) : Atom (.name spelling) (ofName spelling) := by
  unfold ofName
  split
  · next same => exact same ▸ .true
  · next notTrue =>
    split
    · next same => exact same ▸ .false
    · next notFalse => exact .var notTrue notFalse

section Equations

variable {room : Nat} {left expr : Expr} {lexemes : List Lexeme}

/-- An atom is read in any room. -/
theorem readOperand_atom {lexeme : Lexeme} (atom : Atom lexeme expr) (rest : List Lexeme) :
    readOperand room (lexeme :: rest) = .ok (expr, rest) := by
  cases atom with
  | number value => cases room <;> rfl
  | text content => cases room <;> rfl
  | true => cases room <;> rfl
  | false => cases room <;> rfl
  | @var spelling notTrue notFalse =>
      have named : readOperand room (.name spelling :: rest) = .ok (ofName spelling, rest) := by
        cases room <;> rfl
      rw [named, ofName, if_neg notTrue, if_neg notFalse]

/-- A sign is read with one unit of room, and its operand with the rest. -/
theorem readOperand_signed {sign : Lexeme} {op : UnaryOp} (signs : Signs sign op) :
    readOperand (room + 1) (sign :: lexemes) = (do
      let (operand, rest) ← readOperand room lexemes
      .ok (.unary op operand, rest)) := by
  cases signs <;> rfl

theorem readOperand_signed_zero {sign : Lexeme} {op : UnaryOp} (signs : Signs sign op) :
    readOperand 0 (sign :: lexemes) = .error .tooDeep := by
  cases signs <;> rfl

/-- Parentheses are read with one unit of room, and what they enclose with the rest. -/
theorem readOperand_parens :
    readOperand (room + 1) (.openParen :: lexemes) = (do
      let (inner, rest) ← readEquality room lexemes
      let rest ← closeParen rest
      .ok (inner, rest)) :=
  rfl

theorem readOperand_parens_zero :
    readOperand 0 (.openParen :: lexemes) = .error .tooDeep :=
  rfl

theorem readProductLinks_done (ends : productSign? lexemes = none) :
    readProductLinks room left lexemes = .ok (left, lexemes) := by
  rw [readProductLinks.eq_def, ends]

/-- A link of a product is read with one unit of room, the links behind it with the rest. -/
theorem readProductLinks_link {sign : Lexeme} {op : BinaryOp} (joins : Joins .product sign op) :
    readProductLinks (room + 1) left (sign :: lexemes) = (do
      let (right, rest) ← readOperand room lexemes
      readProductLinks room (.binary op left right) rest) := by
  rw [readProductLinks.eq_def, productSign?_eq_some_iff.2 ⟨sign, joins, rfl⟩]

theorem readProductLinks_zero {sign : Lexeme} {op : BinaryOp} (joins : Joins .product sign op) :
    readProductLinks 0 left (sign :: lexemes) = .error .tooDeep := by
  rw [readProductLinks.eq_def, productSign?_eq_some_iff.2 ⟨sign, joins, rfl⟩]

theorem readSumLinks_done (ends : sumSign? lexemes = none) :
    readSumLinks room left lexemes = .ok (left, lexemes) := by
  rw [readSumLinks.eq_def, ends]

theorem readSumLinks_link {sign : Lexeme} {op : BinaryOp} (joins : Joins .sum sign op) :
    readSumLinks (room + 1) left (sign :: lexemes) = (do
      let (right, rest) ← readProduct room lexemes
      readSumLinks room (.binary op left right) rest) := by
  rw [readSumLinks.eq_def, sumSign?_eq_some_iff.2 ⟨sign, joins, rfl⟩]
  rfl

theorem readSumLinks_zero {sign : Lexeme} {op : BinaryOp} (joins : Joins .sum sign op) :
    readSumLinks 0 left (sign :: lexemes) = .error .tooDeep := by
  rw [readSumLinks.eq_def, sumSign?_eq_some_iff.2 ⟨sign, joins, rfl⟩]

end Equations

/-- An operand is an atom, a sign and an operand, or an equality in parentheses;
the latter two take one unit of the room. -/
theorem readOperand_eq_ok {room : Nat} {lexemes rest : List Lexeme} {expr : Expr}
    (read : readOperand room lexemes = .ok (expr, rest)) :
    (∃ lexeme, Atom lexeme expr ∧ lexemes = lexeme :: rest) ∨
      (∃ less sign op inner operand, room = less + 1 ∧ Signs sign op ∧
        lexemes = sign :: inner ∧ readOperand less inner = .ok (operand, rest) ∧
        expr = .unary op operand) ∨
      ∃ less inner, room = less + 1 ∧ lexemes = .openParen :: inner ∧
        readEquality less inner = .ok (expr, .closeParen :: rest) := by
  have signed {sign : Lexeme} {op : UnaryOp} {inner : List Lexeme} (signs : Signs sign op)
      (read : readOperand room (sign :: inner) = .ok (expr, rest)) :
      ∃ less operand, room = less + 1 ∧ readOperand less inner = .ok (operand, rest) ∧
        expr = .unary op operand := by
    cases room with
    | zero =>
        rw [readOperand_signed_zero signs] at read
        cases read
    | succ less =>
        rw [readOperand_signed signs] at read
        obtain ⟨⟨operand, behind⟩, readInner, result⟩ := bind_eq_ok_iff.1 read
        cases result
        exact ⟨less, operand, rfl, readInner, rfl⟩
  cases lexemes with
  | nil => cases room <;> cases read
  | cons lexeme inner =>
      cases lexeme with
      | number value =>
          cases room <;> cases read <;> exact .inl ⟨_, .number _, rfl⟩
      | text content =>
          cases room <;> cases read <;> exact .inl ⟨_, .text _, rfl⟩
      | name spelling =>
          cases room <;> cases read <;> exact .inl ⟨_, atom_ofName _, rfl⟩
      | minus =>
          obtain ⟨less, operand, isLess, readInner, whole⟩ := signed .minus read
          exact .inr (.inl ⟨less, _, _, inner, operand, isLess, .minus, rfl, readInner, whole⟩)
      | bang =>
          obtain ⟨less, operand, isLess, readInner, whole⟩ := signed .bang read
          exact .inr (.inl ⟨less, _, _, inner, operand, isLess, .bang, rfl, readInner, whole⟩)
      | openParen =>
          cases room with
          | zero =>
              rw [readOperand_parens_zero] at read
              cases read
          | succ less =>
              rw [readOperand_parens] at read
              obtain ⟨⟨enclosed, behind⟩, readInner, closing⟩ := bind_eq_ok_iff.1 read
              obtain ⟨after, closed, result⟩ := bind_eq_ok_iff.1 closing
              cases result
              rw [closeParen_eq_ok_iff.1 closed] at readInner
              exact .inr (.inr ⟨less, inner, rfl, rfl, readInner⟩)
      | _ => cases room <;> cases read

/-- The links of a product end, or a further link is read with less room. -/
theorem readProductLinks_eq_ok {room : Nat} {left expr : Expr} {lexemes rest : List Lexeme}
    (read : readProductLinks room left lexemes = .ok (expr, rest)) :
    (left = expr ∧ lexemes = rest) ∨
      ∃ less sign op inner right behind, room = less + 1 ∧ Joins .product sign op ∧
        lexemes = sign :: inner ∧ readOperand less inner = .ok (right, behind) ∧
        readProductLinks less (.binary op left right) behind = .ok (expr, rest) := by
  rw [readProductLinks.eq_def] at read
  split at read
  · cases read
    exact .inl ⟨rfl, rfl⟩
  · next op inner joined =>
    obtain ⟨sign, joins, rfl⟩ := productSign?_eq_some_iff.1 joined
    cases room with
    | zero => cases read
    | succ less =>
        obtain ⟨⟨right, behind⟩, readRight, readMore⟩ := bind_eq_ok_iff.1 read
        exact .inr ⟨less, sign, op, inner, right, behind, rfl, joins, rfl, readRight, readMore⟩

/-- The links of a sum end, or a further link is read with less room. -/
theorem readSumLinks_eq_ok {room : Nat} {left expr : Expr} {lexemes rest : List Lexeme}
    (read : readSumLinks room left lexemes = .ok (expr, rest)) :
    (left = expr ∧ lexemes = rest) ∨
      ∃ less sign op inner right behind, room = less + 1 ∧ Joins .sum sign op ∧
        lexemes = sign :: inner ∧ readProduct less inner = .ok (right, behind) ∧
        readSumLinks less (.binary op left right) behind = .ok (expr, rest) := by
  rw [readSumLinks.eq_def] at read
  split at read
  · cases read
    exact .inl ⟨rfl, rfl⟩
  · next op inner joined =>
    obtain ⟨sign, joins, rfl⟩ := sumSign?_eq_some_iff.1 joined
    cases room with
    | zero => cases read
    | succ less =>
        obtain ⟨⟨right, behind⟩, readRight, readMore⟩ := bind_eq_ok_iff.1 read
        exact .inr ⟨less, sign, op, inner, right, behind, rfl, joins, rfl, readRight, readMore⟩

/-- A product is an operand and its links. -/
theorem readProduct_eq_ok {room : Nat} {lexemes rest : List Lexeme} {expr : Expr}
    (read : readProduct room lexemes = .ok (expr, rest)) :
    ∃ first behind, readOperand room lexemes = .ok (first, behind) ∧
      readProductLinks room first behind = .ok (expr, rest) := by
  obtain ⟨⟨first, behind⟩, readFirst, readMore⟩ := bind_eq_ok_iff.1 read
  exact ⟨first, behind, readFirst, readMore⟩

/-- A sum is a product and its links. -/
theorem readSum_eq_ok {room : Nat} {lexemes rest : List Lexeme} {expr : Expr}
    (read : readSum room lexemes = .ok (expr, rest)) :
    ∃ first behind, readProduct room lexemes = .ok (first, behind) ∧
      readSumLinks room first behind = .ok (expr, rest) := by
  obtain ⟨⟨first, behind⟩, readFirst, readMore⟩ := bind_eq_ok_iff.1 read
  exact ⟨first, behind, readFirst, readMore⟩

/-- An equality is a sum, or two sums with a comparison between them. -/
theorem readEquality_eq_ok {room : Nat} {lexemes rest : List Lexeme} {expr : Expr}
    (read : readEquality room lexemes = .ok (expr, rest)) :
    readSum room lexemes = .ok (expr, rest) ∨
      ∃ sign op inner left right, Joins .equality sign op ∧
        readSum room lexemes = .ok (left, sign :: inner) ∧
        readSum room inner = .ok (right, rest) ∧ expr = .binary op left right := by
  obtain ⟨⟨left, behind⟩, readLeft, readMore⟩ := bind_eq_ok_iff.1 read
  simp only at readMore
  split at readMore
  · cases readMore
    exact .inl readLeft
  · next op inner compared =>
    obtain ⟨sign, joins, rfl⟩ := comparison?_eq_some_iff.1 compared
    obtain ⟨⟨right, after⟩, readRight, result⟩ := bind_eq_ok_iff.1 readMore
    cases result
    exact .inr ⟨sign, op, inner, left, right, joins, readLeft, readRight, rfl⟩

end Expr
end Script
end Pagelet
