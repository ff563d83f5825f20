import Pagelet.Proofs.Expression.Soundness

/-!
# Whatever the grammar derives is read, or nests too deep

A derived front of a list is read back to its tree, unless the room runs out
first; and it never runs out when the front holds no more signs than there is
room.  Nothing else can go wrong, whatever stands behind the front, as long as no
sign there continues it.
-/

namespace Pagelet
namespace Script
namespace Expr

/-- A reading ends as expected, or the room was less than the signs of the front
and reading gave up. -/
def Settles (room : Nat) (front : List Lexeme) (actual expected : Reading) : Prop :=
  actual = expected ∨ (room < signCount front ∧ actual = .error .tooDeep)

namespace Settles

variable {room less : Nat} {front part : List Lexeme} {actual middle expected : Reading}

/-- A reading that settles another one settles what that one settles. -/
theorem trans (first : Settles room front actual middle)
    (second : Settles room front middle expected) : Settles room front actual expected := by
  rcases first with rfl | deep
  · exact second
  · exact .inr deep

/-- Reading a part with less room settles the whole, if the part can only run out
of room when the whole may. -/
theorem weaken (settles : Settles less part actual expected)
    (short : less < signCount part → room < signCount front) :
    Settles room front actual expected :=
  settles.imp_right fun ⟨few, deep⟩ => ⟨short few, deep⟩

/-- A reader goes on from what its first part has settled. -/
theorem bind {value : Expr × List Lexeme} (first : Settles room front actual (.ok value))
    (next : Expr × List Lexeme → Reading) :
    Settles room front (actual >>= next) (next value) := by
  rcases first with rfl | ⟨short, rfl⟩
  · exact .inl rfl
  · exact .inr ⟨short, rfl⟩

/-- A reader that runs out of room gives up, and nothing else is left to settle. -/
theorem gives_up (short : room < signCount front) (deep : actual = .error .tooDeep) :
    Settles room front actual expected :=
  .inr ⟨short, deep⟩

end Settles

/-- The reader of a category reads the front back to its tree.  For a product and
a sum this says that its last link has been read and that the room left then is
short by no more than the signs of the front. -/
def ReadsBack : Category → List Lexeme → Expr → Prop
  | .operand, front, expr => ∀ room rest,
      Settles room front (readOperand room (front ++ rest)) (.ok (expr, rest))
  | .product, front, expr => ∀ room rest, ∃ less, room ≤ less + signCount front ∧
      Settles room front (readProduct room (front ++ rest)) (readProductLinks less expr rest)
  | .sum, front, expr => ∀ room rest, productSign? rest = none →
      ∃ less, room ≤ less + signCount front ∧
        Settles room front (readSum room (front ++ rest)) (readSumLinks less expr rest)
  | .equality, front, expr => ∀ room rest, productSign? rest = none → sumSign? rest = none →
      comparison? rest = none →
        Settles room front (readEquality room (front ++ rest)) (.ok (expr, rest))

theorem Joins.productSign?_of_sum {sign : Lexeme} {op : BinaryOp} (joins : Joins .sum sign op)
    (rest : List Lexeme) : productSign? (sign :: rest) = none := by
  cases joins <;> rfl

theorem Joins.productSign?_of_equality {sign : Lexeme} {op : BinaryOp}
    (joins : Joins .equality sign op) (rest : List Lexeme) :
    productSign? (sign :: rest) = none := by
  cases joins <;> rfl

theorem Joins.sumSign?_of_equality {sign : Lexeme} {op : BinaryOp}
    (joins : Joins .equality sign op) (rest : List Lexeme) :
    sumSign? (sign :: rest) = none := by
  cases joins <;> rfl

namespace ReadsBack

variable {front back : List Lexeme} {sign : Lexeme} {expr left right : Expr}

theorem atom {lexeme : Lexeme} (atom : Atom lexeme expr) :
    ReadsBack .operand [lexeme] expr := by
  intro room rest
  exact .inl (readOperand_atom atom rest)

/-- Parentheses read back as what they enclose. -/
theorem parens (inner : ReadsBack .equality front expr) :
    ReadsBack .operand (.openParen :: front ++ [.closeParen]) expr := by
  intro room rest
  have count := signCount_parens front
  rw [show (.openParen :: front ++ [.closeParen]) ++ rest =
    .openParen :: (front ++ .closeParen :: rest) by simp]
  cases room with
  | zero => exact .gives_up (by omega) readOperand_parens_zero
  | succ less =>
      rw [readOperand_parens]
      exact ((inner less (.closeParen :: rest) rfl rfl rfl).bind _).weaken (by omega)

/-- A signed operand reads back with its sign. -/
theorem signed {op : UnaryOp} (signs : Signs sign op) (inner : ReadsBack .operand front expr) :
    ReadsBack .operand (sign :: front) (.unary op expr) := by
  intro room rest
  have count := signCount_cons_of_isSign signs.isSign front
  rw [List.cons_append]
  cases room with
  | zero => exact .gives_up (by omega) (readOperand_signed_zero signs)
  | succ less =>
      rw [readOperand_signed signs]
      exact ((inner less rest).bind _).weaken (by omega)

theorem ofOperand (alone : ReadsBack .operand front expr) : ReadsBack .product front expr := by
  intro room rest
  exact ⟨room, by omega, (alone room rest).bind _⟩

/-- A product reads back with one more link behind it. -/
theorem productLink {op : BinaryOp} (joins : Joins .product sign op)
    (first : ReadsBack .product front left) (last : ReadsBack .operand back right) :
    ReadsBack .product (front ++ sign :: back) (.binary op left right) := by
  intro room rest
  have count := signCount_link joins.isSign front back
  rw [List.append_assoc, List.cons_append]
  -- the links so far have used up the room, or there is some left for this one
  obtain ⟨less, bound, reached⟩ := first room (sign :: (back ++ rest))
  cases less with
  | zero =>
      refine ⟨room, by omega, (reached.weaken (by omega)).trans ?_⟩
      exact .gives_up (by omega) (readProductLinks_zero joins)
  | succ less =>
      refine ⟨less, by omega, (reached.weaken (by omega)).trans ?_⟩
      rw [readProductLinks_link joins]
      exact ((last less rest).bind _).weaken (by omega)

/-- A product is read to its end when no further link follows. -/
theorem product_ends (product : ReadsBack .product front expr) (room : Nat)
    {rest : List Lexeme} (ends : productSign? rest = none) :
    Settles room front (readProduct room (front ++ rest)) (.ok (expr, rest)) := by
  obtain ⟨less, -, reached⟩ := product room rest
  rw [readProductLinks_done ends] at reached
  exact reached

theorem ofProduct (alone : ReadsBack .product front expr) : ReadsBack .sum front expr := by
  intro room rest ends
  exact ⟨room, by omega, (alone.product_ends room ends).bind _⟩

/-- A sum reads back with one more link behind it. -/
theorem sumLink {op : BinaryOp} (joins : Joins .sum sign op)
    (first : ReadsBack .sum front left) (last : ReadsBack .product back right) :
    ReadsBack .sum (front ++ sign :: back) (.binary op left right) := by
  intro room rest ends
  have count := signCount_link joins.isSign front back
  rw [List.append_assoc, List.cons_append]
  obtain ⟨less, bound, reached⟩ :=
    first room (sign :: (back ++ rest)) (joins.productSign?_of_sum _)
  cases less with
  | zero =>
      refine ⟨room, by omega, (reached.weaken (by omega)).trans ?_⟩
      exact .gives_up (by omega) (readSumLinks_zero joins)
  | succ less =>
      refine ⟨less, by omega, (reached.weaken (by omega)).trans ?_⟩
      rw [readSumLinks_link joins]
      exact ((last.product_ends less ends).bind _).weaken (by omega)

/-- A sum is read to its end when no further link follows. -/
theorem sum_ends (sum : ReadsBack .sum front expr) (room : Nat) {rest : List Lexeme}
    (productEnds : productSign? rest = none) (sumEnds : sumSign? rest = none) :
    Settles room front (readSum room (front ++ rest)) (.ok (expr, rest)) := by
  obtain ⟨less, -, reached⟩ := sum room rest productEnds
  rw [readSumLinks_done sumEnds] at reached
  exact reached

theorem ofSum (alone : ReadsBack .sum front expr) : ReadsBack .equality front expr := by
  intro room rest productEnds sumEnds ends
  refine ((alone.sum_ends room productEnds sumEnds).bind _).trans (.inl ?_)
  simp only [ends]

/-- A comparison reads back with both its sides. -/
theorem compared {op : BinaryOp} (joins : Joins .equality sign op)
    (first : ReadsBack .sum front left) (last : ReadsBack .sum back right) :
    ReadsBack .equality (front ++ sign :: back) (.binary op left right) := by
  intro room rest productEnds sumEnds _
  have count := signCount_link joins.isSign front back
  have found : comparison? (sign :: (back ++ rest)) = some (op, back ++ rest) :=
    comparison?_eq_some_iff.2 ⟨sign, joins, rfl⟩
  have reached := first.sum_ends room (joins.productSign?_of_equality (back ++ rest))
    (joins.sumSign?_of_equality (back ++ rest))
  rw [List.append_assoc, List.cons_append]
  refine ((reached.bind _).weaken (by omega)).trans ?_
  simp only [found]
  exact ((last.sum_ends room productEnds sumEnds).bind _).weaken (by omega)

end ReadsBack

/-- Whatever the grammar derives is read back. -/
theorem Derives.readsBack {category : Category} {front : List Lexeme} {expr : Expr}
    (derived : Derives category front expr) : ReadsBack category front expr := by
  induction derived with
  | atom atom => exact .atom atom
  | parens derived ih => exact ih.parens
  | signed signs derived ih => exact ih.signed signs
  | ofOperand derived ih => exact ih.ofOperand
  | productLink first joins last ihFirst ihLast => exact ihFirst.productLink joins ihLast
  | ofProduct derived ih => exact ih.ofProduct
  | sumLink first joins last ihFirst ihLast => exact ihFirst.sumLink joins ihLast
  | ofSum derived ih => exact ih.ofSum
  | compared first joins last ihFirst ihLast => exact ihFirst.compared joins ihLast

/-- A derived list is read as its expression, or it holds more signs than the
nesting limit and is refused for its depth. -/
theorem Derives.settles {lexemes : List Lexeme} {expr : Expr}
    (derived : Derives .equality lexemes expr) :
    ofLexemes lexemes = .ok expr ∨
      (maxNesting < signCount lexemes ∧ ofLexemes lexemes = .error .tooDeep) := by
  have whole := derived.readsBack maxNesting [] rfl rfl rfl
  rw [List.append_nil] at whole
  rcases whole with done | ⟨short, deep⟩
  · exact .inl (ofLexemes_eq_ok_iff.2 done)
  · right
    refine ⟨short, ?_⟩
    rw [ofLexemes, deep]
    rfl

/-- Reading accepts the grammar up to the nesting limit.  A list that is read
derives its tree; a list that derives a tree is read as this tree or refused for
its depth, and with at most as many signs as the limit allows it is never refused;
every other list is an error.  A text is read through its lexemes. -/
theorem ofLexemes_accepts_grammar (lexemes : List Lexeme) :
    (∀ expr, ofLexemes lexemes = .ok expr → Derives .equality lexemes expr) ∧
      (∀ expr, Derives .equality lexemes expr →
        ofLexemes lexemes = .ok expr ∨ ofLexemes lexemes = .error .tooDeep) ∧
      (∀ expr, Derives .equality lexemes expr → signCount lexemes ≤ 256 →
        ofLexemes lexemes = .ok expr) ∧
      ((∀ expr, ¬Derives .equality lexemes expr) →
        ∃ fault, ofLexemes lexemes = .error fault) ∧
      ∀ source : String, Lexeme.scan source.toList = .ok lexemes →
        parse source = ofLexemes lexemes := by
  refine ⟨?_, ?_, ?_, ?_, ?_⟩
  · intro expr whole
    exact derives_of_ofLexemes whole
  · intro expr derived
    exact derived.settles.imp_right And.right
  · intro expr derived few
    rcases derived.settles with done | ⟨many, -⟩
    · exact done
    · exact absurd many (Nat.not_lt.2 few)
  · intro underived
    cases read : ofLexemes lexemes with
    | error fault => exact ⟨fault, rfl⟩
    | ok expr => exact absurd (derives_of_ofLexemes read) (underived expr)
  · intro source scanned
    rw [parse, scanned]
    rfl

end Expr
end Script
end Pagelet
