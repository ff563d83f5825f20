import Pagelet.Proofs.Expression.Readers

/-!
# Whatever is read belongs to the grammar

A reader that succeeds has taken a front off its list, and that front derives the
tree it returns.  The readers of further links continue a derivation that is
already there.  The induction is on the room, which every nested reader is given
less of.
-/

namespace Pagelet
namespace Script
namespace Expr

/-- With this room, the readers of operands and of further links only return what
the grammar derives. -/
structure SoundAt (room : Nat) : Prop where
  operand {lexemes rest : List Lexeme} {expr : Expr}
    (read : readOperand room lexemes = .ok (expr, rest)) :
    ∃ front, lexemes = front ++ rest ∧ Derives .operand front expr
  productLinks {front lexemes rest : List Lexeme} {left expr : Expr}
    (derived : Derives .product front left)
    (read : readProductLinks room left lexemes = .ok (expr, rest)) :
    ∃ back, lexemes = back ++ rest ∧ Derives .product (front ++ back) expr
  sumLinks {front lexemes rest : List Lexeme} {left expr : Expr}
    (derived : Derives .sum front left)
    (read : readSumLinks room left lexemes = .ok (expr, rest)) :
    ∃ back, lexemes = back ++ rest ∧ Derives .sum (front ++ back) expr

namespace SoundAt

variable {room : Nat} {lexemes rest : List Lexeme} {expr : Expr}

/-- What is read as a product is derived as one. -/
theorem product (sound : SoundAt room) (read : readProduct room lexemes = .ok (expr, rest)) :
    ∃ front, lexemes = front ++ rest ∧ Derives .product front expr := by
  obtain ⟨first, behind, readFirst, readMore⟩ := readProduct_eq_ok read
  obtain ⟨front, rfl, derived⟩ := sound.operand readFirst
  obtain ⟨back, rfl, whole⟩ := sound.productLinks (.ofOperand derived) readMore
  exact ⟨front ++ back, by simp, whole⟩

theorem sum (sound : SoundAt room) (read : readSum room lexemes = .ok (expr, rest)) :
    ∃ front, lexemes = front ++ rest ∧ Derives .sum front expr := by
  obtain ⟨first, behind, readFirst, readMore⟩ := readSum_eq_ok read
  obtain ⟨front, rfl, derived⟩ := sound.product readFirst
  obtain ⟨back, rfl, whole⟩ := sound.sumLinks (.ofProduct derived) readMore
  exact ⟨front ++ back, by simp, whole⟩

/-- What is read as an equality is derived as one. -/
theorem equality (sound : SoundAt room) (read : readEquality room lexemes = .ok (expr, rest)) :
    ∃ front, lexemes = front ++ rest ∧ Derives .equality front expr := by
  rcases readEquality_eq_ok read with
    readAlone | ⟨sign, op, inner, left, right, joins, readLeft, readRight, rfl⟩
  · obtain ⟨front, rfl, derived⟩ := sound.sum readAlone
    exact ⟨front, rfl, .ofSum derived⟩
  · obtain ⟨front, rfl, first⟩ := sound.sum readLeft
    obtain ⟨back, rfl, last⟩ := sound.sum readRight
    exact ⟨front ++ sign :: back, by simp, .compared first joins last⟩

end SoundAt

/-- The readers are sound with any room. -/
theorem soundAt (room : Nat) : SoundAt room := by
  induction room using Nat.strongRecOn with
  | ind room ih =>
    constructor
    case operand =>
      intro lexemes rest expr read
      rcases readOperand_eq_ok read with
        ⟨lexeme, atom, rfl⟩ | ⟨less, sign, op, inner, operand, rfl, signs, rfl, readInner, rfl⟩ |
          ⟨less, inner, rfl, rfl, readInner⟩
      · exact ⟨[lexeme], rfl, .atom atom⟩
      · obtain ⟨front, rfl, derived⟩ := (ih less (Nat.lt_succ_self less)).operand readInner
        exact ⟨sign :: front, rfl, .signed signs derived⟩
      · obtain ⟨front, rfl, derived⟩ := (ih less (Nat.lt_succ_self less)).equality readInner
        exact ⟨.openParen :: front ++ [.closeParen], by simp, .parens derived⟩
    case productLinks =>
      intro front lexemes rest left expr derived read
      rcases readProductLinks_eq_ok read with
        ⟨rfl, rfl⟩ |
          ⟨less, sign, op, inner, right, behind, rfl, joins, rfl, readRight, readMore⟩
      · exact ⟨[], rfl, by simpa using derived⟩
      · have sound := ih less (Nat.lt_succ_self less)
        obtain ⟨link, rfl, last⟩ := sound.operand readRight
        obtain ⟨back, rfl, whole⟩ :=
          sound.productLinks (.productLink derived joins last) readMore
        exact ⟨sign :: link ++ back, by simp, by simpa using whole⟩
    case sumLinks =>
      intro front lexemes rest left expr derived read
      rcases readSumLinks_eq_ok read with
        ⟨rfl, rfl⟩ |
          ⟨less, sign, op, inner, right, behind, rfl, joins, rfl, readRight, readMore⟩
      · exact ⟨[], rfl, by simpa using derived⟩
      · have sound := ih less (Nat.lt_succ_self less)
        obtain ⟨link, rfl, last⟩ := sound.product readRight
        obtain ⟨back, rfl, whole⟩ := sound.sumLinks (.sumLink derived joins last) readMore
        exact ⟨sign :: link ++ back, by simp, by simpa using whole⟩

/-- The whole list was read. -/
theorem ofLexemes_eq_ok_iff {lexemes : List Lexeme} {expr : Expr} :
    ofLexemes lexemes = .ok expr ↔ readEquality maxNesting lexemes = .ok (expr, []) := by
  constructor
  · intro whole
    obtain ⟨⟨result, behind⟩, read, ended⟩ := bind_eq_ok_iff.1 whole
    cases behind with
    | nil =>
        cases ended
        exact read
    | cons extra more => cases ended
  · intro read
    rw [ofLexemes, read]
    rfl

/-- A list that is read as an expression derives that expression. -/
theorem derives_of_ofLexemes {lexemes : List Lexeme} {expr : Expr}
    (whole : ofLexemes lexemes = .ok expr) : Derives .equality lexemes expr := by
  obtain ⟨front, taken, derived⟩ := (soundAt maxNesting).equality (ofLexemes_eq_ok_iff.1 whole)
  rw [taken, List.append_nil]
  exact derived

end Expr
end Script
end Pagelet
