import Bucketing.Proofs.Predicate.Evaluation
import Bucketing.Proofs.Record.CanonicalText

/-! # Negated operations

An operation and its negation answer oppositely, with one exception: where an order is asked for
and the value has no place in it, both answer no. That is so without a value and beside a NaN.
Equality, sets and prefixes have no such exception, and neither have records, whose NaN are ordered.
-/
namespace Bucketing

/-- Whether a row has no place in the order of the literals: it has no value or is a NaN, or one of
them is. -/
def Operand.unordered (operand : Operand) (row : Option Value) : Bool :=
  (Operation.present row).all Value.isNaN || operand.literals.any Value.isNaN

namespace Operation

def isOrdering : Operation → Bool
  | .less | .atMost | .greater | .atLeast => true
  | _ => false

/-- What an ordering says of two values in this order. -/
def admits : Operation → Ordering → Bool
  | .less, o => o == .lt
  | .atMost, o => o != .gt
  | .greater, o => o == .gt
  | .atLeast, o => o != .lt
  | _, _ => false

theorem isOrdering_negate (op : Operation) : op.negate.isOrdering = op.isOrdering := by
  cases op <;> rfl

theorem admits_negate {op : Operation} (hOp : op.isOrdering = true) (o : Ordering) :
    op.negate.admits o = !op.admits o := by
  cases op <;> cases o <;> first | rfl | cases hOp

theorem testPresent_literal {op : Operation} (hOp : op.isOrdering = true) {value : Option Value}
    {w : Value} {o : Option Ordering} (h : compareWith value w = .ok o) :
    op.testPresent value (.literal w) = .ok (o.any op.admits) := by
  match op, hOp with
  | .less, _ | .atMost, _ | .greater, _ | .atLeast, _ =>
    rw [testPresent, h]
    rcases o with _ | _ | _ | _ <;> rfl

theorem exists_compareWith_of_testPresent {op : Operation} (hOp : op.isOrdering = true)
    {value : Option Value} {operand : Operand} {matched : Bool}
    (h : op.testPresent value operand = .ok matched) :
    ∃ w o, operand = .literal w ∧ compareWith value w = .ok o := by
  match op, hOp, operand with
  | .less, _, .literal w | .atMost, _, .literal w | .greater, _, .literal w
  | .atLeast, _, .literal w =>
    rw [testPresent] at h
    obtain ⟨o, ho, -⟩ := Outcome.map_eq_ok_iff.mp h
    exact ⟨w, o, rfl, ho⟩

theorem unordered_literal_iff {row : Option Value} {w : Value} {o : Option Ordering}
    (h : compareWith (present row) w = .ok o) :
    (Operand.literal w).unordered row = true ↔ o = none := by
  rw [Operand.unordered, Operand.literals, Bool.or_eq_true, List.any_cons, List.any_nil, Bool.or_false]
  cases hPresent : present row with
  | none =>
    rw [hPresent] at h
    cases h
    simp
  | some v =>
    rw [hPresent] at h
    exact (Value.eq_none_iff_of_tryCompare h).symm

/-- Equality, sets, prefixes and the tests without operand are negated by negating their answer. -/
theorem testPresent_negate_of_not_isOrdering {op : Operation} (hOp : op.isOrdering = false)
    {value : Option Value} {operand : Operand} {matched : Bool}
    (h : op.testPresent value operand = .ok matched) :
    op.negate.testPresent value operand = .ok (!matched) := by
  match op, hOp, operand with
  | .isNull, _, _ | .notNull, _, _ =>
    cases h
    cases value <;> rfl
  | .isNaN, _, _ =>
    cases h
    rfl
  | .notNaN, _, _ =>
    cases h
    rw [Bool.not_not]
    rfl
  | .equal, _, .literal w =>
    obtain ⟨o, ho, rfl⟩ := Outcome.map_eq_ok_iff.mp h
    rw [negate, testPresent, ho]
    rfl
  | .notEqual, _, .literal w =>
    obtain ⟨o, ho, rfl⟩ := Outcome.map_eq_ok_iff.mp h
    rw [negate, testPresent, ho, bne, Bool.not_not]
    rfl
  | .startsWith, _, .literal w =>
    rw [testPresent] at h
    rw [negate, testPresent, h]
    rfl
  | .notStartsWith, _, .literal w =>
    obtain ⟨found, hFound, rfl⟩ := Outcome.map_eq_ok_iff.mp h
    rw [negate, testPresent, hFound, Bool.not_not]
  | .isIn, _, .set ws =>
    rw [testPresent] at h
    rw [negate, testPresent, h]
    rfl
  | .notIn, _, .set ws =>
    obtain ⟨found, hFound, rfl⟩ := Outcome.map_eq_ok_iff.mp h
    rw [negate, testPresent, hFound, Bool.not_not]

theorem testPresent_of_unordered {op : Operation} (hOp : op.isOrdering = true) {row : Option Value}
    {operand : Operand} {matched : Bool} (hUnordered : operand.unordered row = true)
    (h : op.testPresent (present row) operand = .ok matched) :
    matched = false ∧ op.negate.testPresent (present row) operand = .ok false := by
  obtain ⟨w, o, rfl, ho⟩ := exists_compareWith_of_testPresent hOp h
  obtain rfl := (unordered_literal_iff ho).mp hUnordered
  rw [testPresent_literal hOp ho] at h
  cases h
  exact ⟨rfl, testPresent_literal ((isOrdering_negate op).trans hOp) ho⟩

theorem testPresent_negate_of_ordered {op : Operation} (hOp : op.isOrdering = true)
    {row : Option Value} {operand : Operand} {matched : Bool}
    (hOrdered : ¬operand.unordered row = true)
    (h : op.testPresent (present row) operand = .ok matched) :
    op.negate.testPresent (present row) operand = .ok (!matched) := by
  obtain ⟨w, o, rfl, ho⟩ := exists_compareWith_of_testPresent hOp h
  rw [unordered_literal_iff ho] at hOrdered
  obtain ⟨o, rfl⟩ := Option.ne_none_iff_exists'.mp hOrdered
  rw [testPresent_literal hOp ho] at h
  cases h
  rw [testPresent_literal ((isOrdering_negate op).trans hOp) ho, Option.any_some, Option.any_some,
    admits_negate hOp o]

/-- The negation of an operation matches exactly the rows that the operation does not match, unless
the operation asks for an order in which a row has no place: such a row matches neither. -/
theorem test_negate {op : Operation} {row : Option Value} {operand : Operand} {matched : Bool}
    (h : op.test row operand = .ok matched) :
    (op.isOrdering = true ∧ operand.unordered row = true →
        matched = false ∧ op.negate.test row operand = .ok false) ∧
      (¬(op.isOrdering = true ∧ operand.unordered row = true) →
        op.negate.test row operand = .ok (!matched)) := by
  constructor
  · rintro ⟨hOp, hUnordered⟩
    exact testPresent_of_unordered hOp hUnordered h
  · intro hNot
    cases hOp : op.isOrdering with
    | false => exact testPresent_negate_of_not_isOrdering hOp h
    | true =>
      apply testPresent_negate_of_ordered hOp _ h
      intro hUnordered
      exact hNot ⟨hOp, hUnordered⟩

/-- Beside a NaN a number has no place in the order, but a record has. -/
theorem test_negate_nan :
    (less.test (some (.float64 (.nan .double false))) (.literal (.float64 (.infinity .double false))) =
        .ok false ∧
      less.negate.test (some (.float64 (.nan .double false)))
        (.literal (.float64 (.infinity .double false))) = .ok false) ∧
    less.test (some (.record (Record.measurement 0x7ff8000000000001)))
        (.literal (.record (Record.measurement 0x7ff0000000000000))) = .ok false ∧
      less.negate.test (some (.record (Record.measurement 0x7ff8000000000001)))
        (.literal (.record (Record.measurement 0x7ff0000000000000))) = .ok true := by
  have hNumber : less.test (some (.float64 (.nan .double false)))
      (.literal (.float64 (.infinity .double false))) = .ok false := rfl
  have hRecord : less.test (some (.record (Record.measurement 0x7ff8000000000001)))
      (.literal (.record (Record.measurement 0x7ff0000000000000))) = .ok false := rfl
  exact ⟨⟨hNumber, ((test_negate hNumber).1 ⟨rfl, rfl⟩).2⟩, hRecord, (test_negate hRecord).2 (by decide)⟩

/-- A NaN is neither below one nor at least one, and a row without a value is neither below five nor
at least five. -/
theorem less_and_atLeast_reject :
    (less.test (some (.float64 (.nan .double false)))
        (.literal (.float64 (.ofBits .double 0x3ff0000000000000))) = .ok false ∧
      less.negate.test (some (.float64 (.nan .double false)))
        (.literal (.float64 (.ofBits .double 0x3ff0000000000000))) = .ok false) ∧
    less.test none (.literal (.int32 5)) = .ok false ∧
      less.negate.test none (.literal (.int32 5)) = .ok false :=
  ⟨⟨rfl, rfl⟩, rfl, rfl⟩

end Operation

end Bucketing
