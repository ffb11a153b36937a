import Bucketing.Sorting
import Bucketing.Value.Comparison

/-! # Testing values

What an operation says about a value and an operand. A comparison with a null, with no value or with
a NaN is false, and so its negation is true.
-/
namespace Bucketing

namespace Operation

/-- A null counts as no value. -/
def present : Option Value → Option Value
  | some .null => none
  | value => value

/-- No value is unordered with every literal. -/
def compareWith (value : Option Value) (literal : Value) : Except Fault (Option Ordering) :=
  match value with
  | some v => v.tryCompare literal
  | none => .ok none

/-- Literals behind the first equal one are not looked at. -/
def equalsAny (value : Option Value) : List Value → Except Fault Bool
  | [] => .ok false
  | literal :: literals => do
    if (← compareWith value literal) == some .eq then return true
    equalsAny value literals

def startsWithLead : Option Value → Value → Except Fault Bool
  | none, _ => .ok false
  | some (.utf8 s), .utf8 lead => .ok (lead.toList.isPrefixOf s.toList)
  | some v, lead => .error (.prefixMistyped v lead)

def testPresent (op : Operation) (value : Option Value) (operand : Operand) : Except Fault Bool :=
  match op, operand with
  | .isNull, _ => .ok value.isNone
  | .notNull, _ => .ok value.isSome
  | .isNaN, _ => .ok (value.any Value.isNaN)
  | .notNaN, _ => .ok (!value.any Value.isNaN)
  | .less, .literal v => (· == some .lt) <$> compareWith value v
  | .atMost, .literal v => (fun o => o == some .lt || o == some .eq) <$> compareWith value v
  | .greater, .literal v => (· == some .gt) <$> compareWith value v
  | .atLeast, .literal v => (fun o => o == some .gt || o == some .eq) <$> compareWith value v
  | .equal, .literal v => (· == some .eq) <$> compareWith value v
  | .notEqual, .literal v => (· != some .eq) <$> compareWith value v
  | .startsWith, .literal v => startsWithLead value v
  | .notStartsWith, .literal v => (!·) <$> startsWithLead value v
  | .isIn, .set vs => equalsAny value vs
  | .notIn, .set vs => (!·) <$> equalsAny value vs
  | op, operand => .error (.operandInvalid operand op)

def test (op : Operation) (value : Option Value) (operand : Operand) : Except Fault Bool :=
  op.testPresent (present value) operand

end Operation

/-! ## Sets of literals

The normal form of the literals of a set predicate: without repetitions, and in ascending order
where all are of one kind.
-/

namespace Literals

/-- Records repeat each other where they compare equal, so that records which differ in the sign of
a zero are kept apart. -/
def same : Value → Value → Bool
  | .record r, .record s =>
    match Value.tryCompare (.record r) (.record s) with
    | .ok (some .eq) => true
    | _ => false
  | v, w => v.equal w

/-- Orders every two literals of one kind. Where they cannot be compared they count as equal. -/
def order : Value → Value → Ordering
  | .float32 x, .float32 y => x.compareTotal y
  | .float64 x, .float64 y => x.compareTotal y
  | v, w =>
    match v.tryCompare w with
    | .ok (some o) => o
    | _ => .eq

def ofOneKind : List Value → Bool
  | [] => true
  | v :: vs => vs.all (·.kind? == v.kind?)

def normalize (vs : List Value) : List Value :=
  let kept := Sorting.distinct same vs
  if ofOneKind kept then Sorting.sort (fun v w => order v w == .lt) kept else kept

theorem mem_of_mem_normalize (vs : List Value) (v : Value) (h : v ∈ normalize vs) : v ∈ vs := by
  simp only [normalize] at h
  split at h
  · exact Sorting.mem_of_mem_distinct same vs v ((Sorting.mem_sort_iff _ _ _).mp h)
  · exact Sorting.mem_of_mem_distinct same vs v h

end Literals

end Bucketing
