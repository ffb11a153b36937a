import Bucketing.Predicate

/-! # Projecting predicates onto buckets

From a predicate on a column, a predicate on the number of the column's bucket. An inclusive
projection matches the bucket of every matching row, a strict one only buckets in which every row
matches. Where no such predicate says anything there is none, and nothing can be pruned.
-/
namespace Bucketing

/-- The direction in which a projection may err. -/
inductive Direction where
  | inclusive
  | strict
  deriving DecidableEq, Repr

/-- Into an ascending list without repetitions. -/
def insertAscending (n : Int32) : List Int32 → List Int32
  | [] => [n]
  | m :: ms =>
    if n < m then n :: m :: ms else if n = m then m :: ms else m :: insertAscending n ms

def ascending (ns : List Int32) : List Int32 :=
  ns.foldl (fun sorted n => insertAscending n sorted) []

namespace Assigner

/-- A null literal has no bucket and is refused. -/
def assignLiteral (a : Assigner) (v : Value) : Except Fault Int32 := do
  match ← a.assign v with
  | some bucket => return bucket
  | none => throw (.missing "bucket for literal")

def assignLiterals (a : Assigner) : List Value → Except Fault (List Int32)
  | [] => .ok []
  | v :: vs => do
    let bucket ← a.assignLiteral v
    let buckets ← a.assignLiterals vs
    return bucket :: buckets

end Assigner

namespace Bucketer

/-- A predicate on buckets says the same of the partition column that holds these very buckets. -/
def carry (b : Bucketer) (name : String) (p : TermPredicate) :
    Except Fault (Option NamedPredicate) :=
  match p.term with
  | .column _ => .ok none
  | .bucketed other _ =>
    if other = b then some <$> NamedPredicate.make p.op name p.operand else .ok none

def projectColumn (b : Bucketer) (direction : Direction) (name : String) (type : ColumnType)
    (p : TermPredicate) : Except Fault (Option NamedPredicate) := do
  let a ← b.bind type
  match direction, p.op, p.operand with
  | _, .isNull, .none | _, .notNull, .none => some <$> NamedPredicate.make p.op name .none
  | .inclusive, .equal, .literal v | .strict, .notEqual, .literal v => do
    let bucket ← a.assignLiteral v
    some <$> NamedPredicate.make p.op name (.literal (.int32 bucket))
  | .inclusive, .isIn, .set vs | .strict, .notIn, .set vs => do
    let buckets ← a.assignLiterals vs
    some <$> NamedPredicate.makeNormal p.op name (.set ((ascending buckets).map .int32))
  | _, _, _ => return none

/-- Equality and membership survive inclusively, their negations strictly, and null tests both ways.
-/
def project (b : Bucketer) (direction : Direction) (name : String) (p : TermPredicate) :
    Except Fault (Option NamedPredicate) :=
  match p.term with
  | .bucketed _ _ => b.carry name p
  | .column c => b.projectColumn direction name c.type p

end Bucketer

end Bucketing
