import Pagelet.Proofs.Expression.Exact

/-!
# The first fault of an expression

The nodes of an expression are looked at in the order in which they are evaluated, each against
what its operands yield when numbers have no bounds.  If there is something wrong at a node, the
first such fault is the result of the evaluation; otherwise the result is the exact value.
-/

namespace Pagelet
namespace Script
namespace Expr

/-- The nodes of an expression as they are evaluated: an operator stands behind its operands, and
what belongs to the left operand stands in front of what belongs to the right one. -/
def nodes : Expr → List Expr
  | literal value => [literal value]
  | var name => [var name]
  | unary op operand => operand.nodes ++ [unary op operand]
  | binary op left right => left.nodes ++ right.nodes ++ [binary op left right]

/-- The exact value of an expression.  No size of a number stops this evaluation. -/
inductive Yields (bindings : Variables) : Expr → ExactValue → Prop
  | literal (value : Value) : Yields bindings (literal value) value.exact
  | var (name : String) : Yields bindings (var name) (bindings.read name).exact
  | unary {op : UnaryOp} {operand : Expr} {inner result : ExactValue}
      (yields : Yields bindings operand inner) (gives : op.Gives inner result) :
      Yields bindings (unary op operand) result
  | binary {op : BinaryOp} {left right : Expr} {first second result : ExactValue}
      (leftYields : Yields bindings left first) (rightYields : Yields bindings right second)
      (gives : op.Gives first second result) : Yields bindings (binary op left right) result

/-- Something is wrong with what the operands of the topmost operator yield. -/
inductive FailsAt (bindings : Variables) : Expr → Fault → Prop
  | unary {op : UnaryOp} {operand : Expr} {inner : ExactValue} {fault : Fault}
      (yields : operand.Yields bindings inner) (fails : op.Fails inner fault) :
      FailsAt bindings (unary op operand) fault
  | binary {op : BinaryOp} {left right : Expr} {first second : ExactValue} {fault : Fault}
      (leftYields : left.Yields bindings first) (rightYields : right.Yields bindings second)
      (fails : op.Fails first second fault) : FailsAt bindings (binary op left right) fault

/-- There is nothing wrong at any of the nodes. -/
def Faultless (bindings : Variables) (nodes : List Expr) : Prop :=
  ∀ node ∈ nodes, ∀ fault, ¬ node.FailsAt bindings fault

/-- The fault at the first of the nodes at which there is one. -/
inductive FirstFault (bindings : Variables) : List Expr → Fault → Prop
  | here {node : Expr} {behind : List Expr} {fault : Fault}
      (fails : node.FailsAt bindings fault) : FirstFault bindings (node :: behind) fault
  | later {node : Expr} {behind : List Expr} {fault : Fault}
      (sound : ∀ other, ¬ node.FailsAt bindings other)
      (first : FirstFault bindings behind fault) : FirstFault bindings (node :: behind) fault

section Lists

variable {bindings : Variables} {node : Expr} {nodes others : List Expr} {fault : Fault}

/-- Nodes are faultless if the first and the others are. -/
theorem faultless_cons_iff :
    Faultless bindings (node :: nodes) ↔
      (∀ other, ¬ node.FailsAt bindings other) ∧ Faultless bindings nodes :=
  List.forall_mem_cons

/-- The first fault is that of the first node, or else that of the others. -/
theorem firstFault_cons_iff :
    FirstFault bindings (node :: nodes) fault ↔ node.FailsAt bindings fault ∨
      (∀ other, ¬ node.FailsAt bindings other) ∧ FirstFault bindings nodes fault := by
  constructor
  · rintro (fails | ⟨sound, first⟩)
    · exact .inl fails
    · exact .inr ⟨sound, first⟩
  · rintro (fails | ⟨sound, first⟩)
    · exact .here fails
    · exact .later sound first

theorem not_firstFault_nil : ¬ FirstFault bindings [] fault :=
  nofun

theorem firstFault_singleton_iff :
    FirstFault bindings [node] fault ↔ node.FailsAt bindings fault := by
  simp [firstFault_cons_iff, not_firstFault_nil]

/-- A fault among the nodes in front comes first. -/
theorem firstFault_append_iff :
    FirstFault bindings (nodes ++ others) fault ↔ FirstFault bindings nodes fault ∨
      Faultless bindings nodes ∧ FirstFault bindings others fault := by
  induction nodes with
  | nil => simp [not_firstFault_nil, Faultless]
  | cons node nodes ih =>
      rw [List.cons_append, firstFault_cons_iff, firstFault_cons_iff, faultless_cons_iff, ih,
        and_or_left, or_assoc, and_assoc]

/-- If there is something wrong at one of the nodes, there is a first fault. -/
theorem faultless_iff :
    Faultless bindings nodes ↔ ∀ fault, ¬ FirstFault bindings nodes fault := by
  induction nodes with
  | nil => simp [not_firstFault_nil, Faultless]
  | cons node nodes ih =>
      rw [faultless_cons_iff, ih]
      constructor
      · rintro ⟨sound, faultless⟩ fault (fails | ⟨-, first⟩)
        · exact sound fault fails
        · exact faultless fault first
      · intro none
        have sound (other : Fault) : ¬ node.FailsAt bindings other :=
          fun fails => none other (.here fails)
        exact ⟨sound, fun fault first => none fault (.later sound first)⟩

/-- The fault in front is the first one, whatever is wrong behind. -/
theorem firstFault_append_of_first {found : Fault}
    (only : ∀ fault, FirstFault bindings nodes fault ↔ fault = found) (fault : Fault) :
    FirstFault bindings (nodes ++ others) fault ↔ fault = found := by
  have faulty : ¬ Faultless bindings nodes := fun none => faultless_iff.1 none _ ((only _).2 rfl)
  rw [firstFault_append_iff, only]
  exact or_iff_left fun both => faulty both.1

/-- Where nothing is wrong in front, the first fault is the first one behind. -/
theorem firstFault_append_of_faultless (front : Faultless bindings nodes) :
    FirstFault bindings (nodes ++ others) fault ↔ FirstFault bindings others fault := by
  rw [firstFault_append_iff, and_iff_right front]
  exact or_iff_right (faultless_iff.1 front fault)

end Lists

section Operators

variable {bindings : Variables} {operand left right : Expr} {value first second : Value}
  {result : ExactValue} {fault : Fault}

/-- The operand has this value in both ways of evaluation, and nothing is wrong in it. -/
def HasValue (bindings : Variables) (expr : Expr) (value : Value) : Prop :=
  (∀ result, expr.Yields bindings result ↔ result = value.exact) ∧
    ∀ fault, ¬ FirstFault bindings expr.nodes fault

/-- A node with one operand yields what its operator gives on the operand's value. -/
theorem yields_unary_iff {op : UnaryOp} (has : HasValue bindings operand value) :
    (unary op operand).Yields bindings result ↔ op.Gives value.exact result := by
  constructor
  · rintro (_ | _ | ⟨yields, gives⟩)
    rwa [(has.1 _).1 yields] at gives
  · exact .unary ((has.1 _).2 rfl)

theorem failsAt_unary_iff {op : UnaryOp} (has : HasValue bindings operand value) :
    (unary op operand).FailsAt bindings fault ↔ op.Fails value.exact fault := by
  constructor
  · rintro ⟨yields, fails⟩
    rwa [(has.1 _).1 yields] at fails
  · exact .unary ((has.1 _).2 rfl)

theorem yields_binary_iff {op : BinaryOp} (leftHas : HasValue bindings left first)
    (rightHas : HasValue bindings right second) :
    (binary op left right).Yields bindings result ↔
      op.Gives first.exact second.exact result := by
  constructor
  · rintro (_ | _ | _ | ⟨leftYields, rightYields, gives⟩)
    rwa [(leftHas.1 _).1 leftYields, (rightHas.1 _).1 rightYields] at gives
  · exact .binary ((leftHas.1 _).2 rfl) ((rightHas.1 _).2 rfl)

/-- A node with two operands fails where its operator fails on their values. -/
theorem failsAt_binary_iff {op : BinaryOp} (leftHas : HasValue bindings left first)
    (rightHas : HasValue bindings right second) :
    (binary op left right).FailsAt bindings fault ↔
      op.Fails first.exact second.exact fault := by
  constructor
  · rintro (_ | ⟨leftYields, rightYields, fails⟩)
    rwa [(leftHas.1 _).1 leftYields, (rightHas.1 _).1 rightYields] at fails
  · exact .binary ((leftHas.1 _).2 rfl) ((rightHas.1 _).2 rfl)

end Operators

/-- A leaf has its value. -/
theorem hasValue_leaf {bindings : Variables} {leaf : Expr} {value : Value}
    (alone : leaf.nodes = [leaf]) (sound : ∀ fault, ¬ leaf.FailsAt bindings fault)
    (yields : ∀ result, leaf.Yields bindings result ↔ result = value.exact) :
    HasValue bindings leaf value := by
  refine ⟨yields, fun fault first => ?_⟩
  rw [alone, firstFault_singleton_iff] at first
  exact sound fault first

/-- Evaluation agrees with exact evaluation and with the first fault at a node. -/
theorem agrees_eval (bindings : Variables) (expr : Expr) :
    Agrees (expr.eval bindings) (expr.Yields bindings) (FirstFault bindings expr.nodes) := by
  induction expr with
  | literal value =>
      refine hasValue_leaf rfl nofun fun result => ⟨?_, ?_⟩
      · rintro ⟨⟩
        rfl
      · rintro rfl
        exact .literal value
  | var name =>
      refine hasValue_leaf rfl nofun fun result => ⟨?_, ?_⟩
      · rintro ⟨⟩
        rfl
      · rintro rfl
        exact .var name
  | unary op operand ih =>
      cases inner : operand.eval bindings with
      | error found =>
          rw [inner] at ih
          rw [eval, inner]
          exact firstFault_append_of_first ih
      | ok value =>
          rw [inner] at ih
          have has : HasValue bindings operand value := ih
          rw [eval, inner]
          refine (op.agrees value).congr (fun _ => yields_unary_iff has) fun fault => ?_
          rw [nodes, firstFault_append_of_faultless (faultless_iff.2 has.2),
            firstFault_singleton_iff]
          exact failsAt_unary_iff has
  | binary op left right ihLeft ihRight =>
      cases leftInner : left.eval bindings with
      | error found =>
          rw [leftInner] at ihLeft
          rw [eval, leftInner, nodes, List.append_assoc]
          exact firstFault_append_of_first ihLeft
      | ok first =>
          rw [leftInner] at ihLeft
          have leftHas : HasValue bindings left first := ihLeft
          have leftNone := faultless_iff.2 leftHas.2
          cases rightInner : right.eval bindings with
          | error found =>
              rw [rightInner] at ihRight
              rw [eval, leftInner, rightInner, nodes, List.append_assoc]
              intro fault
              rw [firstFault_append_of_faultless leftNone]
              exact firstFault_append_of_first ihRight fault
          | ok second =>
              rw [rightInner] at ihRight
              have rightHas : HasValue bindings right second := ihRight
              have rightNone := faultless_iff.2 rightHas.2
              rw [eval, leftInner, rightInner]
              refine (op.agrees first second).congr (fun _ => yields_binary_iff leftHas rightHas)
                fun fault => ?_
              rw [nodes, firstFault_append_of_faultless
                (List.forall_mem_append.2 ⟨leftNone, rightNone⟩), firstFault_singleton_iff]
              exact failsAt_binary_iff leftHas rightHas

/-- Arithmetic is exact and never wraps.  An expression has a value just if nothing is wrong at
any of its nodes, and the value is then its only exact one; it fails just with the first fault in
the order of evaluation.  So a result beyond the 64-bit integers, a divisor of zero, and a text
that is no numeral are reported where they come first, and nothing else is. -/
theorem eval_exact (bindings : Variables) (expr : Expr) :
    ((∃ value, expr.eval bindings = .ok value) ↔ Faultless bindings expr.nodes) ∧
      (∀ value, expr.eval bindings = .ok value →
        ∀ result, expr.Yields bindings result ↔ result = value.exact) ∧
      ∀ fault, expr.eval bindings = .error fault ↔ FirstFault bindings expr.nodes fault := by
  have agrees := agrees_eval bindings expr
  cases outcome : expr.eval bindings with
  | ok value =>
      rw [outcome] at agrees
      obtain ⟨only, none⟩ : HasValue bindings expr value := agrees
      refine ⟨⟨fun _ => faultless_iff.2 none, fun _ => ⟨value, rfl⟩⟩, ?_, fun fault => ⟨?_, ?_⟩⟩
      · rintro _ ⟨⟩
        exact only
      · rintro ⟨⟩
      · exact fun first => absurd first (none fault)
  | error found =>
      rw [outcome] at agrees
      have first : FirstFault bindings expr.nodes found := (agrees found).2 rfl
      refine ⟨⟨?_, fun none => absurd first (faultless_iff.1 none found)⟩, ?_, fun fault => ?_⟩
      · rintro ⟨_, ⟨⟩⟩
      · rintro _ ⟨⟩
      · rw [agrees fault, Except.error.injEq, eq_comm]

/-- The smallest number has no quotient by minus one, and a text on the left of a division is not
looked at before the divisor. -/
example (bindings : Variables) :
    (binary .div (literal (.number Int64.minValue)) (literal (.number (-1)))).eval bindings =
        .error .overflow ∧
      (binary .div (literal (.text "x")) (literal (.flag false))).eval bindings =
        .error .divisionByZero :=
  ⟨rfl, rfl⟩

end Expr
end Script
end Pagelet
