import Bucketing.Proofs.Predicate.Typing
import Bucketing.Proofs.Projection

/-! # Projections are tight

A projection is no wider than it has to be: a bucket that an inclusive projection keeps could have a
row that matches, and a bucket that a strict one gives up could have a row that does not. The literal
that put the bucket into the projection is such a row, since it equals itself. Only a NaN does not,
but in a record even that does.
-/
namespace Bucketing

theorem Operation.eq_some_of_compareWith_bucket {bucket : Option Int32} {k : Int32}
    (h : compareWith (bucket.map .int32) (.int32 k) = .ok (some .eq)) : bucket = some k := by
  cases bucket with
  | none => cases h
  | some m => rw [(compareWith_int32_eq_iff m k).mp h]

theorem mem_of_equalsAny_buckets {bucket : Option Int32} {ks : List Int32}
    (h : Operation.equalsAny (bucket.map .int32) (Literals.normalize ((ascending ks).map .int32)) =
      .ok true) : ∃ k ∈ ks, bucket = some k := by
  obtain ⟨v, hv, hEq⟩ := Operation.exists_of_equalsAny h
  obtain ⟨k, rfl⟩ := exists_eq_int32_of_mem_buckets ks v hv
  rw [Literals.mem_normalize_int32_iff, mem_ascending_iff] at hv
  exact ⟨k, hv, Operation.eq_some_of_compareWith_bucket hEq⟩

namespace Operand.Suits

variable {op : Operation} {operand : Operand} {vs : List Value} {t : ColumnType} {w : Value}

theorem holds_literal (h : operand.Suits op t) (hLiterals : ∀ v ∈ operand.literals, v.wellMade = true)
    (hw : w ∈ operand.literals) : t.Holds (some w) := by
  rintro v ⟨⟩
  exact ⟨hLiterals w hw, h.fits w hw⟩

theorem compareWith_literal (h : operand.Suits op t) (hw : w ∈ operand.literals)
    (hNaN : w.isNaN = false) :
    Operation.compareWith (Operation.present (some w)) w = .ok (some .eq) := by
  have hNull := NamedPredicate.isNull_of_wellShaped h.shaped hw
  rw [Operation.present_some hNull]
  exact w.tryCompare_self hNull hNaN

theorem equalsAny_literal (h : (Operand.set vs).Suits op t)
    (hLiterals : ∀ v ∈ vs, v.wellMade = true) (hw : w ∈ vs) (hNaN : w.isNaN = false) :
    Operation.equalsAny (Operation.present (some w)) vs = .ok true := by
  -- the search does not fail on the way to the literal
  have hComparable : ∀ v ∈ vs, ∃ o, Operation.compareWith (Operation.present (some w)) v = .ok o := by
    intro v hv
    exact Operation.exists_compareWith_of_holds (h.holds_literal hLiterals hw) (hLiterals v hv)
      (h.fits v hv) (NamedPredicate.isNull_of_wellShaped h.shaped hv)
  obtain ⟨found, hFound, hIff⟩ := Operation.equalsAny_of_comparable hComparable
  rw [hFound, hIff.mpr ⟨w, hw, h.compareWith_literal hw hNaN⟩]

end Operand.Suits

namespace Projected

variable {a : Assigner} {name : String} {c : Column} {p : TermPredicate} {q : NamedPredicate}
  {row : Option Value} {bucket : Option Int32}

theorem inclusive_tight (h : Projected a name (.column c) .inclusive p q)
    (hSuits : p.operand.Suits p.op c.type) (hLiterals : ∀ v ∈ p.operand.literals, v.wellMade = true)
    (hNaN : ∀ v ∈ p.operand.literals, v.isNaN = false) (hRow : c.type.Holds row)
    (hBucket : a.assignRow row = .ok bucket) (hTest : q.test (bucket.map .int32) = .ok true) :
    ∃ r, c.type.Holds r ∧ a.assignRow r = .ok bucket ∧ p.test r = .ok true := by
  cases h with
  | isNull => exact ⟨row, hRow, hBucket, (test_isNull hBucket).trans hTest⟩
  | notNull => exact ⟨row, hRow, hBucket, (test_notNull hBucket).trans hTest⟩
  | @equal w k hw =>
    rw [NamedPredicate.test_bucket, Operation.testPresent] at hTest
    obtain ⟨o, ho, hEq⟩ := Outcome.map_eq_ok_iff.mp hTest
    rw [beq_iff_eq.mp hEq] at ho
    obtain rfl := Operation.eq_some_of_compareWith_bucket ho
    have hMem : w ∈ (Operand.literal w).literals := List.mem_cons_self
    refine ⟨some w, hSuits.holds_literal hLiterals hMem, hw, ?_⟩
    rw [TermPredicate.test_column, Operation.testPresent,
      hSuits.compareWith_literal hMem (hNaN w hMem)]
    rfl
  | @isIn vs ks hks =>
    rw [NamedPredicate.test_bucket, Operation.testPresent] at hTest
    obtain ⟨k, hk, rfl⟩ := mem_of_equalsAny_buckets hTest
    obtain ⟨w, hMem, hw⟩ := a.exists_of_mem_assignLiterals hks k hk
    refine ⟨some w, hSuits.holds_literal hLiterals hMem, hw, ?_⟩
    rw [TermPredicate.test_column, Operation.testPresent,
      hSuits.equalsAny_literal hLiterals hMem (hNaN w hMem)]

theorem strict_tight (h : Projected a name (.column c) .strict p q)
    (hSuits : p.operand.Suits p.op c.type) (hLiterals : ∀ v ∈ p.operand.literals, v.wellMade = true)
    (hNaN : ∀ v ∈ p.operand.literals, v.isNaN = false) (hRow : c.type.Holds row)
    (hBucket : a.assignRow row = .ok bucket) (hTest : q.test (bucket.map .int32) = .ok false) :
    ∃ r, c.type.Holds r ∧ a.assignRow r = .ok bucket ∧ p.test r = .ok false := by
  cases h with
  | isNull => exact ⟨row, hRow, hBucket, (test_isNull hBucket).trans hTest⟩
  | notNull => exact ⟨row, hRow, hBucket, (test_notNull hBucket).trans hTest⟩
  | @notEqual w k hw =>
    rw [NamedPredicate.test_bucket, Operation.testPresent] at hTest
    obtain ⟨o, ho, hEq⟩ := Outcome.map_eq_ok_iff.mp hTest
    rw [bne_eq_false_iff_eq.mp hEq] at ho
    obtain rfl := Operation.eq_some_of_compareWith_bucket ho
    have hMem : w ∈ (Operand.literal w).literals := List.mem_cons_self
    refine ⟨some w, hSuits.holds_literal hLiterals hMem, hw, ?_⟩
    rw [TermPredicate.test_column, Operation.testPresent,
      hSuits.compareWith_literal hMem (hNaN w hMem)]
    rfl
  | @notIn vs ks hks =>
    rw [NamedPredicate.test_bucket, Operation.testPresent] at hTest
    obtain ⟨found, hFound, hNot⟩ := Outcome.map_eq_ok_iff.mp hTest
    rw [Bool.not_eq_false'] at hNot
    rw [hNot] at hFound
    obtain ⟨k, hk, rfl⟩ := mem_of_equalsAny_buckets hFound
    obtain ⟨w, hMem, hw⟩ := a.exists_of_mem_assignLiterals hks k hk
    refine ⟨some w, hSuits.holds_literal hLiterals hMem, hw, ?_⟩
    rw [TermPredicate.test_column, Operation.testPresent,
      hSuits.equalsAny_literal hLiterals hMem (hNaN w hMem)]
    rfl

end Projected

namespace Bucketer

/-- Wherever there is a row in a bucket, an inclusive projection keeps the bucket only if a row in it
matches, and a strict one gives it up only if a row in it does not. -/
theorem project_tight {b : Bucketer} {name : String} {op : Operation} {c : Column} {operand : Operand}
    {p : TermPredicate} {row : Option Value} {bucket : Option Int32}
    (hMake : TermPredicate.make op (.column c) operand = .ok p)
    (hLiterals : ∀ v ∈ p.operand.literals, v.wellMade = true)
    (hNaN : ∀ v ∈ p.operand.literals, v.isNaN = false) (hRow : c.type.Holds row)
    (hBucket : b.bucketOf c.type row = .ok bucket) :
    (∀ q, b.project .inclusive name p = .ok (some q) → q.test (bucket.map .int32) = .ok true →
        ∃ r, c.type.Holds r ∧ b.bucketOf c.type r = .ok bucket ∧ p.test r = .ok true) ∧
      ∀ q, b.project .strict name p = .ok (some q) → q.test (bucket.map .int32) = .ok false →
        ∃ r, c.type.Holds r ∧ b.bucketOf c.type r = .ok bucket ∧ p.test r = .ok false := by
  obtain ⟨operand, rfl, hSuits⟩ := TermPredicate.suits_of_make hMake
  constructor
  · intro q hProject hTest
    obtain ⟨a, ha, hProjected⟩ := projected_of_projectColumn hProject
    simp only [bucketOf_of_bind ha] at hBucket ⊢
    exact hProjected.inclusive_tight hSuits hLiterals hNaN hRow hBucket hTest
  · intro q hProject hTest
    obtain ⟨a, ha, hProjected⟩ := projected_of_projectColumn hProject
    simp only [bucketOf_of_bind ha] at hBucket ⊢
    exact hProjected.strict_tight hSuits hLiterals hNaN hRow hBucket hTest

/-- A measurement with no score. -/
def unscored : Record :=
  [(⟨1, "id", .int64, false⟩, .int64 7), (⟨2, "unit", .utf8, true⟩, .null),
    (⟨3, "score", .float64, true⟩, .null)]

/-- A record with no score shares the bucket of one with a NaN, for which that bucket is kept. -/
theorem project_tight_nan :
    (∃ r, isZeroOrNaN.term.origin.type.Holds r ∧
        (⟨8, by decide⟩ : Bucketer).bucketOf isZeroOrNaN.term.origin.type r = .ok (some 2) ∧
          isZeroOrNaN.test r = .ok true) ∧
      ∃ r, isNotNaN.term.origin.type.Holds r ∧
        (⟨8, by decide⟩ : Bucketer).bucketOf isNotNaN.term.origin.type r = .ok (some 2) ∧
          isNotNaN.test r = .ok false := by
  have hHolds : (Record.type (Record.measurement 0)).Holds (some (.record unscored)) := by
    rintro v ⟨⟩
    exact ⟨rfl, rfl⟩
  have hBucket : (⟨8, by decide⟩ : Bucketer).bucketOf (Record.type (Record.measurement 0))
      (some (.record unscored)) = .ok (some 2) := rfl
  constructor
  · have hMake : TermPredicate.make .isIn (.column ⟨"key", Record.type (Record.measurement 0)⟩)
        isZeroOrNaN.operand = .ok isZeroOrNaN := rfl
    have hProject : (⟨8, by decide⟩ : Bucketer).project .inclusive "bucket" isZeroOrNaN =
        .ok (some ⟨.isIn, "bucket", .set [.int32 2, .int32 4]⟩) := rfl
    exact (project_tight hMake (by decide) (by decide) hHolds hBucket).1 _ hProject rfl
  · have hMake : TermPredicate.make .notIn (.column ⟨"key", Record.type (Record.measurement 0)⟩)
        isNotNaN.operand = .ok isNotNaN := rfl
    have hProject : (⟨8, by decide⟩ : Bucketer).project .strict "bucket" isNotNaN =
        .ok (some ⟨.notIn, "bucket", .set [.int32 2]⟩) := rfl
    exact (project_tight hMake (by decide) (by decide) hHolds hBucket).2 _ hProject rfl

end Bucketer

end Bucketing
