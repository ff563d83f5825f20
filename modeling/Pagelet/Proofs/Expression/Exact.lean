import Pagelet.Proofs.Text.Numerals
import Pagelet.Proofs.Text.Trimming
import Pagelet.Script.Expr

/-!
# Arithmetic without bounds

Here numbers are integers of any size.  Relations say which result an operator gives to exact
operands, and with which fault it fails: where the exact result does not fit 64 bits, where the
divisor counts as zero, and where an operand of arithmetic is a text that is no numeral.  On the
values that scripts hold, an operator gives the exact result if there is no fault, and fails
with the one fault that there is otherwise.
-/

namespace Pagelet
namespace Script

open Text (IsBlankText WritesSigned trim)

/-- A value whose numbers have no bounds. -/
inductive ExactValue
  | text (content : String)
  | number (value : Int)
  | flag (value : Bool)
deriving DecidableEq, Repr

/-- The number is one of the 64-bit integers. -/
def FitsWord (number : Int) : Prop :=
  -2 ^ 63 ≤ number ∧ number < 2 ^ 63

/-- What a script holds, as an exact value. -/
def Value.exact : Value → ExactValue
  | text content => .text content
  | number value => .number value.toInt
  | flag value => .flag value

namespace ExactValue

/-- A value that is neither the empty text, nor zero, nor false. -/
def truthy : ExactValue → Bool
  | text content => content ≠ ""
  | number value => value ≠ 0
  | flag value => value

/-- The value as text, a number in decimal. -/
def shown : ExactValue → String
  | text content => content
  | number value => toString value
  | flag true => "true"
  | flag false => "false"

/-- The value is a text. -/
def IsText : ExactValue → Prop
  | text _ => True
  | _ => False

/-- The number that a value counts as in arithmetic: truth values count as one and zero, blank
text as zero, and other text as the 64-bit number that it writes between blanks. -/
inductive CountsAs : ExactValue → Int → Prop
  | number (value : Int) : CountsAs (number value) value
  | true : CountsAs (flag true) 1
  | false : CountsAs (flag false) 0
  | blank {content : String} (blank : IsBlankText content.toList) : CountsAs (text content) 0
  | numeral {content : String} {value : Int} (writes : WritesSigned (trim content.toList) value)
      (fits : FitsWord value) : CountsAs (text content) value

end ExactValue

/-! ## Exact operators -/

/-- The exact result of an operator before its operand. -/
inductive UnaryOp.Gives : UnaryOp → ExactValue → ExactValue → Prop
  | negate {operand : ExactValue} {number : Int} (counts : operand.CountsAs number) :
      Gives negate operand (.number (-number))
  | not (operand : ExactValue) : Gives not operand (.flag !operand.truthy)

/-- What is wrong with an operator before its operand. -/
inductive UnaryOp.Fails : UnaryOp → ExactValue → Fault → Prop
  | overflow {op : UnaryOp} {operand : ExactValue} {number : Int}
      (gives : op.Gives operand (.number number)) (beyond : ¬ FitsWord number) :
      Fails op operand .overflow
  | notANumber {content : String}
      (uncounted : ∀ number, ¬ (ExactValue.text content).CountsAs number) :
      Fails negate (.text content) (.notANumber content)

namespace BinaryOp

/-- The operation on integers that an operator carries out on its operands.  A text keeps `+`
from adding. -/
inductive Computes : BinaryOp → ExactValue → ExactValue → (Int → Int → Int) → Prop
  | add {left right : ExactValue} (noText : ¬ (left.IsText ∨ right.IsText)) :
      Computes add left right (· + ·)
  | sub (left right : ExactValue) : Computes sub left right (· - ·)
  | mul (left right : ExactValue) : Computes mul left right (· * ·)
  | div (left right : ExactValue) : Computes div left right Int.tdiv

/-- The exact result of an operator between its operands. -/
inductive Gives : BinaryOp → ExactValue → ExactValue → ExactValue → Prop
  | computed {op : BinaryOp} {left right : ExactValue} {operation : Int → Int → Int}
      {first second : Int} (computes : op.Computes left right operation)
      (leftCounts : left.CountsAs first) (rightCounts : right.CountsAs second)
      (defined : op = div → second ≠ 0) : Gives op left right (.number (operation first second))
  | joined {left right : ExactValue} (someText : left.IsText ∨ right.IsText) :
      Gives add left right (.text (left.shown ++ right.shown))
  | equal (left right : ExactValue) : Gives equal left right (.flag (left = right))
  | notEqual (left right : ExactValue) : Gives notEqual left right (.flag (left ≠ right))

/-- What is wrong with an operator between its operands.  A division looks at its divisor
first, every other operator at its left operand. -/
inductive Fails : BinaryOp → ExactValue → ExactValue → Fault → Prop
  | overflow {op : BinaryOp} {left right : ExactValue} {number : Int}
      (gives : op.Gives left right (.number number)) (beyond : ¬ FitsWord number) :
      Fails op left right .overflow
  | divisionByZero {left right : ExactValue} (zero : right.CountsAs 0) :
      Fails div left right .divisionByZero
  | left {op : BinaryOp} {content : String} {right : ExactValue} {operation : Int → Int → Int}
      (computes : op.Computes (.text content) right operation)
      (uncounted : ∀ number, ¬ (ExactValue.text content).CountsAs number)
      (divisor : op = div → ∃ number ≠ 0, right.CountsAs number) :
      Fails op (.text content) right (.notANumber content)
  | right {op : BinaryOp} {left : ExactValue} {content : String} {operation : Int → Int → Int}
      (computes : op.Computes left (.text content) operation)
      (uncounted : ∀ number, ¬ (ExactValue.text content).CountsAs number)
      (leftCounts : op ≠ div → ∃ number, left.CountsAs number) :
      Fails op left (.text content) (.notANumber content)

end BinaryOp

/-- An integer fits a word exactly if it is the value of one. -/
theorem fitsWord_iff_exists_word {number : Int} :
    FitsWord number ↔ ∃ word : Int64, word.toInt = number := by
  constructor
  · intro fits
    exact ⟨Int64.ofInt number, Int64.toInt_ofInt_of_le fits.1 fits.2⟩
  · rintro ⟨word, rfl⟩
    exact ⟨word.le_toInt, word.toInt_lt⟩

theorem ExactValue.countsAs_number_iff {value number : Int} :
    (ExactValue.number value).CountsAs number ↔ number = value := by
  constructor
  · rintro ⟨⟩
    rfl
  · rintro rfl
    exact .number _

theorem ExactValue.countsAs_flag_iff {value : Bool} {number : Int} :
    (ExactValue.flag value).CountsAs number ↔ number = if value then 1 else 0 := by
  constructor
  · rintro ⟨⟩ <;> rfl
  · rintro rfl
    cases value <;> constructor

namespace Value

variable {content : String}

/-- A text is read as a number or is rejected with itself as the reason. -/
theorem toNumber_text_cases (content : String) :
    (∃ word, (text content).toNumber = .ok word) ∨
      (text content).toNumber = .error (.notANumber content) := by
  cases trimmed : trim content.toList with
  | nil => exact .inl ⟨0, by simp [toNumber, trimmed]⟩
  | cons c rest =>
      cases read : Text.int64? (c :: rest) with
      | some word => exact .inl ⟨word, by simp [toNumber, trimmed, read]⟩
      | none => exact .inr (by simp [toNumber, trimmed, read])

/-- A text counts as the number that is read from it. -/
theorem countsAs_text_iff {number : Int} :
    (ExactValue.text content).CountsAs number ↔
      ∃ word, (text content).toNumber = .ok word ∧ word.toInt = number := by
  constructor
  · intro counts
    cases counts with
    | blank blank =>
        refine ⟨0, ?_, rfl⟩
        simp [toNumber, Text.trim_eq_nil blank]
    | numeral writes fits =>
        obtain ⟨word, rfl⟩ := fitsWord_iff_exists_word.1 fits
        have read := Text.int64?_eq_some_iff.2 writes
        refine ⟨word, ?_, rfl⟩
        cases trimmed : trim content.toList with
        | nil =>
            rw [trimmed] at read
            cases read
        | cons c rest =>
            rw [trimmed] at read
            simp [toNumber, trimmed, read]
  · rintro ⟨word, read, rfl⟩
    unfold toNumber at read
    simp only at read
    split at read
    · next blank =>
      cases read
      exact .blank (Text.isBlankText_of_trim_eq_nil blank)
    · split at read <;> cases read
      next found =>
        exact .numeral (Text.int64?_eq_some_iff.1 found)
          (fitsWord_iff_exists_word.2 ⟨word, rfl⟩)

/-- The value is read as the number, and counts as no other. -/
structure Counts (value : Value) (word : Int64) : Prop where
  /-- The value is read as the number. -/
  toNumber_eq : value.toNumber = .ok word
  /-- The value counts as this number alone. -/
  countsAs_iff : ∀ number, value.exact.CountsAs number ↔ number = word.toInt

/-- The text is not read as a number, and counts as none. -/
structure Uncounted (content : String) : Prop where
  /-- The text is not read. -/
  toNumber_eq : (text content).toNumber = .error (.notANumber content)
  /-- The text counts as no number. -/
  not_countsAs : ∀ number, ¬ (ExactValue.text content).CountsAs number

/-- A value counts as a word or is a text that counts as none. -/
theorem counts_or_uncounted (value : Value) :
    (∃ word, value.Counts word) ∨ ∃ content, value = text content ∧ Uncounted content := by
  cases value with
  | number word => exact .inl ⟨word, rfl, fun _ => ExactValue.countsAs_number_iff⟩
  | flag value =>
      cases value
      · exact .inl ⟨0, rfl, fun _ => ExactValue.countsAs_flag_iff⟩
      · exact .inl ⟨1, rfl, fun _ => ExactValue.countsAs_flag_iff⟩
  | text content =>
      rcases toNumber_text_cases content with ⟨word, read⟩ | failed
      · refine .inl ⟨word, read, fun number => countsAs_text_iff.trans ?_⟩
        simp [read, eq_comm]
      · refine .inr ⟨content, rfl, failed, fun number counts => ?_⟩
        obtain ⟨word, read, -⟩ := countsAs_text_iff.1 counts
        cases failed.symm.trans read

/-- What a value counts as in words it counts as exactly. -/
theorem Counts.countsAs {value : Value} {word : Int64} (counts : value.Counts word) :
    value.exact.CountsAs word.toInt :=
  (counts.countsAs_iff _).2 rfl

/-- Truth does not depend on the width of a number. -/
theorem truthy_exact (value : Value) : value.exact.truthy = value.truthy := by
  cases value with
  | number word =>
      have zero : word.toInt = 0 ↔ word = 0 := Int64.toInt_inj (y := 0)
      simp [exact, ExactValue.truthy, truthy, zero]
  | _ => rfl

/-- A value is shown as its exact number is. -/
theorem shown_exact (value : Value) : value.exact.shown = value.shown := by
  cases value with
  | flag value => cases value <;> rfl
  | _ => rfl

/-- Values are told apart by their exact values. -/
theorem exact_injective : Function.Injective exact := by
  intro first second same
  cases first <;> cases second <;> simp_all [exact, Int64.toInt_inj]

/-- A number becomes a value if it fits. -/
theorem ofInt_cases (number : Int) :
    (FitsWord number ∧ ∃ value, ofInt number = .ok value ∧ value.exact = .number number) ∨
      ¬ FitsWord number ∧ ofInt number = .error .overflow := by
  cases found : Text.exactInt64? number with
  | some word =>
      have same := Text.exactInt64?_eq_some_iff.1 found
      refine .inl ⟨fitsWord_iff_exists_word.2 ⟨word, same⟩, .number word, ?_, congrArg _ same⟩
      rw [ofInt, found]
  | none =>
      refine .inr ⟨fun fits => ?_, by rw [ofInt, found]⟩
      obtain ⟨word, same⟩ := fitsWord_iff_exists_word.1 fits
      rw [Text.exactInt64?_eq_some_iff.2 same] at found
      cases found

end Value

/-! ## Agreement -/

/-- The outcome is the only exact result, and there is no fault; or it is the only fault. -/
def Agrees (outcome : Except Fault Value) (gives : ExactValue → Prop) (fails : Fault → Prop) :
    Prop :=
  match outcome with
  | .ok value => (∀ result, gives result ↔ result = value.exact) ∧ ∀ fault, ¬ fails fault
  | .error found => ∀ fault, fails fault ↔ fault = found

/-- Agreement depends only on what an operation gives and how it fails. -/
theorem Agrees.congr {outcome : Except Fault Value} {gives others : ExactValue → Prop}
    {fails faults : Fault → Prop} (agrees : Agrees outcome gives fails)
    (results : ∀ result, others result ↔ gives result)
    (wrong : ∀ fault, faults fault ↔ fails fault) : Agrees outcome others faults := by
  obtain rfl : others = gives := funext fun result => propext (results result)
  obtain rfl : faults = fails := funext fun fault => propext (wrong fault)
  exact agrees

/-- A number that is the only exact result agrees with its conversion, if nothing but its size
can be wrong. -/
theorem agrees_ofInt {gives : ExactValue → Prop} {fails : Fault → Prop} {number : Int}
    (only : ∀ result, gives result ↔ result = .number number)
    (overflow : ∀ fault, fails fault ↔ fault = .overflow ∧ ¬ FitsWord number) :
    Agrees (Value.ofInt number) gives fails := by
  rcases Value.ofInt_cases number with ⟨fits, value, found, same⟩ | ⟨beyond, found⟩
  · rw [found, Agrees, same]
    exact ⟨only, fun fault failed => ((overflow fault).1 failed).2 fits⟩
  · rw [found, Agrees]
    exact fun fault => (overflow fault).trans (and_iff_left beyond)

namespace UnaryOp

/-- Negation gives the negative of the number that its operand counts as. -/
theorem gives_negate_iff {operand result : ExactValue} :
    Gives negate operand result ↔
      ∃ number, operand.CountsAs number ∧ result = .number (-number) := by
  constructor
  · rintro ⟨counts⟩
    exact ⟨_, counts, rfl⟩
  · rintro ⟨number, counts, rfl⟩
    exact .negate counts

/-- Negation fails on numbers whose negative does not fit and on texts that are no numbers. -/
theorem fails_negate_iff {operand : ExactValue} {fault : Fault} :
    Fails negate operand fault ↔
      (fault = .overflow ∧ ∃ number, operand.CountsAs number ∧ ¬ FitsWord (-number)) ∨
        ∃ content, operand = .text content ∧ fault = .notANumber content ∧
          ∀ number, ¬ operand.CountsAs number := by
  constructor
  · intro fails
    cases fails with
    | overflow gives beyond =>
        cases gives with
        | negate counts => exact .inl ⟨rfl, _, counts, beyond⟩
    | notANumber uncounted => exact .inr ⟨_, rfl, rfl, uncounted⟩
  · rintro (⟨rfl, number, counts, beyond⟩ | ⟨content, rfl, rfl, uncounted⟩)
    · exact .overflow (.negate counts) beyond
    · exact .notANumber uncounted

theorem agrees_not (operand : Value) :
    Agrees (not.apply operand) (not.Gives operand.exact) (not.Fails operand.exact) := by
  constructor
  · intro result
    rw [Value.exact, ← operand.truthy_exact]
    constructor
    · intro gives
      cases gives
      rfl
    · rintro rfl
      exact .not _
  · intro fault fails
    cases fails with
    | overflow gives beyond => cases gives

/-- Negation is exact. -/
theorem agrees_negate (operand : Value) :
    Agrees (negate.apply operand) (negate.Gives operand.exact) (negate.Fails operand.exact) := by
  rcases operand.counts_or_uncounted with ⟨word, counts⟩ | ⟨content, rfl, uncounted⟩
  · have negated : negate.apply operand = Value.ofInt (-word.toInt) := by
      rw [apply, Value.negate, counts.toNumber_eq]
      rfl
    rw [negated]
    apply agrees_ofInt
    · simp [gives_negate_iff, counts.countsAs_iff]
    · simp [fails_negate_iff, counts.countsAs_iff]
  · have failing : negate.apply (.text content) = .error (.notANumber content) := by
      rw [apply, Value.negate, uncounted.toNumber_eq]
      rfl
    rw [failing, Agrees]
    simp [fails_negate_iff, Value.exact, uncounted.not_countsAs]

/-- An operator before its operand gives the exact result or fails as it should. -/
theorem agrees (op : UnaryOp) (operand : Value) :
    Agrees (op.apply operand) (op.Gives operand.exact) (op.Fails operand.exact) := by
  cases op with
  | negate => exact agrees_negate operand
  | not => exact agrees_not operand

end UnaryOp

namespace BinaryOp

variable {op : BinaryOp} {left right result : ExactValue} {operation : Int → Int → Int}

/-- An operator computes one operation. -/
theorem Computes.unique {other : Int → Int → Int} (first : op.Computes left right operation)
    (second : op.Computes left right other) : operation = other := by
  cases first <;> cases second <;> rfl

/-- An arithmetic operator gives the result of its operation on the numbers that both sides count
as. -/
theorem Computes.gives_iff (computes : op.Computes left right operation) :
    op.Gives left right result ↔ ∃ first second, left.CountsAs first ∧ right.CountsAs second ∧
      (op = .div → second ≠ 0) ∧ result = .number (operation first second) := by
  constructor
  · intro gives
    cases gives with
    | computed also leftCounts rightCounts defined =>
        rw [also.unique computes]
        exact ⟨_, _, leftCounts, rightCounts, defined, rfl⟩
    | joined someText => cases computes; contradiction
    | equal => cases computes
    | notEqual => cases computes
  · rintro ⟨first, second, leftCounts, rightCounts, defined, rfl⟩
    exact .computed computes leftCounts rightCounts defined

/-- An arithmetic operator fails on results that do not fit, on a zero divisor and on texts that
are no numbers, the left one first. -/
theorem Computes.fails_iff (computes : op.Computes left right operation) {fault : Fault} :
    op.Fails left right fault ↔
      (fault = .overflow ∧ ∃ first second, left.CountsAs first ∧ right.CountsAs second ∧
        (op = .div → second ≠ 0) ∧ ¬ FitsWord (operation first second)) ∨
      (fault = .divisionByZero ∧ op = .div ∧ right.CountsAs 0) ∨
      (∃ content, left = .text content ∧ fault = .notANumber content ∧
        (∀ number, ¬ left.CountsAs number) ∧
        (op = .div → ∃ number ≠ 0, right.CountsAs number)) ∨
      ∃ content, right = .text content ∧ fault = .notANumber content ∧
        (∀ number, ¬ right.CountsAs number) ∧ (op ≠ .div → ∃ number, left.CountsAs number) := by
  constructor
  · intro fails
    cases fails with
    | overflow gives beyond =>
        obtain ⟨first, second, leftCounts, rightCounts, defined, same⟩ := computes.gives_iff.1 gives
        cases same
        exact .inl ⟨rfl, first, second, leftCounts, rightCounts, defined, beyond⟩
    | divisionByZero zero => exact .inr (.inl ⟨rfl, rfl, zero⟩)
    | left also uncounted divisor =>
        exact .inr (.inr (.inl ⟨_, rfl, rfl, uncounted, divisor⟩))
    | right also uncounted leftCounts =>
        exact .inr (.inr (.inr ⟨_, rfl, rfl, uncounted, leftCounts⟩))
  · rintro (⟨rfl, first, second, leftCounts, rightCounts, defined, beyond⟩ | ⟨rfl, rfl, zero⟩ |
      ⟨content, rfl, rfl, uncounted, divisor⟩ | ⟨content, rfl, rfl, uncounted, leftCounts⟩)
    · exact .overflow (.computed computes leftCounts rightCounts defined) beyond
    · exact .divisionByZero zero
    · exact .left computes uncounted divisor
    · exact .right computes uncounted leftCounts

section Arithmetic

variable {first second : Value} {content : String}

/-- Between numbers only the size of the result can be wrong. -/
theorem agrees_of_counts {one other : Int64}
    (computes : op.Computes first.exact second.exact operation) (leftCounts : first.Counts one)
    (rightCounts : second.Counts other) (defined : op = .div → other.toInt ≠ 0) :
    Agrees (Value.arithmetic operation first second) (op.Gives first.exact second.exact)
      (op.Fails first.exact second.exact) := by
  have computed : Value.arithmetic operation first second =
      Value.ofInt (operation one.toInt other.toInt) := by
    rw [Value.arithmetic, leftCounts.toNumber_eq, rightCounts.toNumber_eq]
    rfl
  rw [computed]
  apply agrees_ofInt
  · intro result
    rw [computes.gives_iff]
    simpa [leftCounts.countsAs_iff, rightCounts.countsAs_iff] using fun _ => defined
  · intro fault
    rw [computes.fails_iff]
    constructor
    · rintro (⟨rfl, _, _, leftIs, rightIs, -, beyond⟩ | ⟨-, isDiv, zero⟩ |
        ⟨_, -, -, uncounted, -⟩ | ⟨_, -, -, uncounted, -⟩)
      · rw [(leftCounts.countsAs_iff _).1 leftIs, (rightCounts.countsAs_iff _).1 rightIs] at beyond
        exact ⟨rfl, beyond⟩
      · exact absurd ((rightCounts.countsAs_iff 0).1 zero).symm (defined isDiv)
      · exact absurd leftCounts.countsAs (uncounted _)
      · exact absurd rightCounts.countsAs (uncounted _)
    · rintro ⟨rfl, beyond⟩
      exact .inl ⟨rfl, _, _, leftCounts.countsAs, rightCounts.countsAs, defined, beyond⟩

/-- A text on the left that counts as no number is the fault, unless the operator is a division
and looks at its divisor first. -/
theorem fails_left_iff (computes : op.Computes (.text content) right operation)
    (uncounted : Value.Uncounted content)
    (divisor : op = .div → (∃ number ≠ 0, right.CountsAs number) ∧ ¬ right.CountsAs 0)
    (fault : Fault) :
    op.Fails (.text content) right fault ↔ fault = .notANumber content := by
  rw [computes.fails_iff]
  constructor
  · rintro (⟨-, _, _, leftIs, -⟩ | ⟨-, isDiv, zero⟩ | ⟨_, same, rfl, -⟩ | ⟨_, -, -, none, leftIs⟩)
    · exact absurd leftIs (uncounted.not_countsAs _)
    · exact absurd zero (divisor isDiv).2
    · cases same
      rfl
    · by_cases isDiv : op = .div
      · obtain ⟨number, -, rightIs⟩ := (divisor isDiv).1
        exact absurd rightIs (none number)
      · obtain ⟨number, leftIs⟩ := leftIs isDiv
        exact absurd leftIs (uncounted.not_countsAs number)
  · rintro rfl
    exact .inr (.inr (.inl ⟨content, rfl, rfl, uncounted.not_countsAs, fun isDiv =>
      (divisor isDiv).1⟩))

/-- A text on the right that counts as no number is the fault, unless the left operand is looked
at first. -/
theorem fails_right_iff (computes : op.Computes left (.text content) operation)
    (uncounted : Value.Uncounted content)
    (leftCounts : op ≠ .div → ∃ number, left.CountsAs number) (fault : Fault) :
    op.Fails left (.text content) fault ↔ fault = .notANumber content := by
  rw [computes.fails_iff]
  constructor
  · rintro (⟨-, _, _, -, rightIs, -⟩ | ⟨-, -, zero⟩ | ⟨_, -, -, none, divisor⟩ | ⟨_, same, rfl, -⟩)
    · exact absurd rightIs (uncounted.not_countsAs _)
    · exact absurd zero (uncounted.not_countsAs _)
    · by_cases isDiv : op = .div
      · obtain ⟨number, -, rightIs⟩ := divisor isDiv
        exact absurd rightIs (uncounted.not_countsAs number)
      · obtain ⟨number, leftIs⟩ := leftCounts isDiv
        exact absurd leftIs (none number)
    · cases same
      rfl
  · rintro rfl
    exact .inr (.inr (.inr ⟨content, rfl, rfl, uncounted.not_countsAs, leftCounts⟩))

/-- A divisor that counts as zero is the fault, whatever is divided. -/
theorem fails_div_iff_of_zero {other : Int64} (rightCounts : second.Counts other)
    (zero : other = 0) (fault : Fault) :
    div.Fails left second.exact fault ↔ fault = .divisionByZero := by
  have onlyZero (number : Int) (counts : second.exact.CountsAs number) : number = 0 := by
    rw [(rightCounts.countsAs_iff number).1 counts, zero]
    rfl
  rw [(Computes.div left second.exact).fails_iff]
  constructor
  · rintro (⟨-, _, number, -, counts, defined, -⟩ | ⟨rfl, -⟩ | ⟨_, -, -, -, divisor⟩ |
      ⟨_, -, -, uncounted, -⟩)
    · exact absurd (onlyZero number counts) (defined rfl)
    · rfl
    · obtain ⟨number, notZero, counts⟩ := divisor rfl
      exact absurd (onlyZero number counts) notZero
    · exact absurd rightCounts.countsAs (uncounted _)
  · rintro rfl
    exact .inr (.inl ⟨rfl, rfl, (rightCounts.countsAs_iff 0).2 (by rw [zero]; rfl)⟩)

end Arithmetic

/-- An operator that looks at its left operand first. -/
theorem agrees_arithmetic {left right : Value}
    (computes : op.Computes left.exact right.exact operation) (notDiv : op ≠ .div) :
    Agrees (Value.arithmetic operation left right) (op.Gives left.exact right.exact)
      (op.Fails left.exact right.exact) := by
  rcases left.counts_or_uncounted with ⟨one, leftCounts⟩ | ⟨content, rfl, uncounted⟩
  · rcases right.counts_or_uncounted with ⟨other, rightCounts⟩ | ⟨content, rfl, uncounted⟩
    · exact agrees_of_counts computes leftCounts rightCounts fun isDiv => absurd isDiv notDiv
    · have failing : Value.arithmetic operation left (.text content) =
          .error (.notANumber content) := by
        rw [Value.arithmetic, leftCounts.toNumber_eq, uncounted.toNumber_eq]
        rfl
      rw [failing]
      exact fails_right_iff computes uncounted fun _ => ⟨_, leftCounts.countsAs⟩
  · have failing : Value.arithmetic operation (.text content) right =
        .error (.notANumber content) := by
      rw [Value.arithmetic, uncounted.toNumber_eq]
      rfl
    rw [failing]
    exact fails_left_iff computes uncounted fun isDiv => absurd isDiv notDiv

/-- Division is exact: it rounds towards zero, and fails on a zero divisor and on the one quotient
that does not fit. -/
theorem agrees_div (left right : Value) :
    Agrees (Value.div left right) (div.Gives left.exact right.exact)
      (div.Fails left.exact right.exact) := by
  have computes := Computes.div left.exact right.exact
  rcases right.counts_or_uncounted with ⟨other, rightCounts⟩ | ⟨content, rfl, uncounted⟩
  · by_cases zero : other = 0
    · have failing : Value.div left right = .error .divisionByZero := by
        rw [Value.div, rightCounts.toNumber_eq]
        exact if_pos zero
      rw [failing]
      exact fails_div_iff_of_zero rightCounts zero
    · have reading : Value.div left right = Value.arithmetic Int.tdiv left right := by
        rw [Value.div, rightCounts.toNumber_eq]
        exact if_neg zero
      have notZero : other.toInt ≠ 0 := fun none => zero (Int64.toInt_inj.1 none)
      rw [reading]
      rcases left.counts_or_uncounted with ⟨one, leftCounts⟩ | ⟨content, rfl, uncounted⟩
      · exact agrees_of_counts computes leftCounts rightCounts fun _ => notZero
      · have failing : Value.arithmetic Int.tdiv (.text content) right =
            .error (.notANumber content) := by
          rw [Value.arithmetic, uncounted.toNumber_eq]
          rfl
        rw [failing]
        refine fails_left_iff computes uncounted fun _ =>
          ⟨⟨_, notZero, rightCounts.countsAs⟩, fun countsZero => ?_⟩
        exact notZero ((rightCounts.countsAs_iff 0).1 countsZero).symm
  · have failing : Value.div left (.text content) = .error (.notANumber content) := by
      rw [Value.div, uncounted.toNumber_eq]
      rfl
    rw [failing]
    exact fails_right_iff computes uncounted fun notDiv => absurd rfl notDiv

/-- An operator that computes nothing from its operands finds nothing wrong with them. -/
theorem not_fails (notDiv : op ≠ .div)
    (computesNot : ∀ operation, ¬ op.Computes left right operation)
    (notNumber : ∀ number, ¬ op.Gives left right (.number number)) (fault : Fault) :
    ¬ op.Fails left right fault := by
  intro fails
  cases fails with
  | overflow gives => exact notNumber _ gives
  | divisionByZero => exact notDiv rfl
  | left computes => exact computesNot _ computes
  | right computes => exact computesNot _ computes

/-- An operator that computes nothing agrees with its only result, if this is no number. -/
theorem agrees_of_only {value : Value} (notDiv : op ≠ .div)
    (computesNot : ∀ operation, ¬ op.Computes left right operation)
    (notNumber : ∀ number, value.exact ≠ .number number) (gives : op.Gives left right value.exact)
    (only : ∀ result, op.Gives left right result → result = value.exact) :
    Agrees (.ok value) (op.Gives left right) (op.Fails left right) := by
  refine ⟨fun result => ⟨only result, ?_⟩, not_fails notDiv computesNot fun number numbered => ?_⟩
  · rintro rfl
    exact gives
  · exact notNumber number (only _ numbered).symm

/-- With a text on either side `+` joins. -/
theorem agrees_joined {left right : Value} (someText : left.exact.IsText ∨ right.exact.IsText) :
    Agrees (.ok (.text (left.shown ++ right.shown))) (add.Gives left.exact right.exact)
      (add.Fails left.exact right.exact) := by
  have computesNot (operation : Int → Int → Int) :
      ¬ add.Computes left.exact right.exact operation := by
    rintro ⟨noText⟩
    exact noText someText
  refine agrees_of_only nofun computesNot nofun ?_ fun result gives => ?_
  · rw [Value.exact, ← left.shown_exact, ← right.shown_exact]
    exact .joined someText
  · rw [Value.exact, ← left.shown_exact, ← right.shown_exact]
    cases gives with
    | computed computes => exact absurd computes (computesNot _)
    | joined => rfl

/-- Addition is exact on numbers and joins texts. -/
theorem agrees_add (left right : Value) :
    Agrees (Value.add left right) (add.Gives left.exact right.exact)
      (add.Fails left.exact right.exact) := by
  by_cases someText : left.exact.IsText ∨ right.exact.IsText
  · have joined : Value.add left right = .ok (.text (left.shown ++ right.shown)) := by
      cases left <;> cases right <;>
        simp_all [Value.add, Value.exact, ExactValue.IsText, Value.shown]
    rw [joined]
    exact agrees_joined someText
  · have added : Value.add left right = Value.arithmetic (· + ·) left right := by
      cases left <;> cases right <;> simp_all [Value.add, Value.exact, ExactValue.IsText]
    rw [added]
    exact agrees_arithmetic (.add someText) nofun

theorem agrees_equal (left right : Value) :
    Agrees (equal.apply left right) (equal.Gives left.exact right.exact)
      (equal.Fails left.exact right.exact) := by
  refine agrees_of_only nofun nofun nofun ?_ fun result gives => ?_
  · rw [Value.exact, ← decide_eq_decide.2 Value.exact_injective.eq_iff]
    exact .equal _ _
  · rw [Value.exact, ← decide_eq_decide.2 Value.exact_injective.eq_iff]
    cases gives with
    | computed computes => cases computes
    | equal => rfl

theorem agrees_notEqual (left right : Value) :
    Agrees (notEqual.apply left right) (notEqual.Gives left.exact right.exact)
      (notEqual.Fails left.exact right.exact) := by
  refine agrees_of_only nofun nofun nofun ?_ fun result gives => ?_
  · rw [Value.exact, ← decide_eq_decide.2 Value.exact_injective.ne_iff]
    exact .notEqual _ _
  · rw [Value.exact, ← decide_eq_decide.2 Value.exact_injective.ne_iff]
    cases gives with
    | computed computes => cases computes
    | notEqual => rfl

/-- An operator between its operands gives the exact result or fails as it should. -/
theorem agrees (op : BinaryOp) (left right : Value) :
    Agrees (op.apply left right) (op.Gives left.exact right.exact)
      (op.Fails left.exact right.exact) := by
  cases op with
  | add => exact agrees_add left right
  | sub => exact agrees_arithmetic (.sub _ _) nofun
  | mul => exact agrees_arithmetic (.mul _ _) nofun
  | div => exact agrees_div left right
  | equal => exact agrees_equal left right
  | notEqual => exact agrees_notEqual left right

end BinaryOp

end Script
end Pagelet
