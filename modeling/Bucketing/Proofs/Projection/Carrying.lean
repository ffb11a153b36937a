import Bucketing.Proofs.Projection.Failure

/-! # Predicates on buckets are carried over

A partition column holds the buckets of a bucketer. A predicate on these buckets is asked of it as it
is, in both directions, and one on the buckets of another bucketer says nothing about it. The row and
its bucket are tested alike, and so are a row without a value and a missing bucket, even where the
column cannot be bucketed.
-/
namespace Bucketing

theorem Bucketer.eq_iff_count_eq (b other : Bucketer) : other = b ↔ other.count = b.count := by
  cases b
  cases other
  rw [mk.injEq]

theorem TermPredicate.test_of_absent {op : Operation} {term : Term} {operand : Operand}
    {row : Option Value} (h : Operation.present row = none) :
    test ⟨op, term, operand⟩ row = op.test none operand := by
  have hEval : term.eval row = .ok none := by rw [Term.eval, h]
  exact test_of_eval hEval

namespace Bucketer

variable {op : Operation} {other : Bucketer} {c : Column} {operand : Operand} {p : TermPredicate}

/-- A predicate on the buckets of a bucketer is carried over by this very bucketer alone. For every row
that has a bucket, and for every row without a value, it is answered as the predicate on the row. -/
theorem project_bucketed (b : Bucketer) (name : String)
    (hMake : TermPredicate.make op (.bucketed other c) operand = .ok p) :
    (∀ direction, b.project direction name p = b.carry name p) ∧
      (b.carry name p = .ok none ↔ other.count ≠ b.count) ∧
      (other.count = b.count → ∃ q, b.carry name p = .ok (some q) ∧
        (∀ row, row = none ∨ row = some .null → q.test none = p.test row) ∧
        ∀ row bucket, b.bucketOf c.type row = .ok bucket →
          q.test (bucket.map .int32) = p.test row) := by
  obtain ⟨operand, rfl, hSuits⟩ := TermPredicate.suits_of_make hMake
  have hCarry : b.carry name ⟨op, .bucketed other c, operand⟩ =
      .ok (if other = b then some ⟨op, name, operand⟩ else none) := carry_bucketed hSuits.shaped
  refine ⟨fun _ => rfl, ?_, ?_⟩
  · rw [hCarry, Except.ok.injEq, ite_eq_right_iff, Ne, ← eq_iff_count_eq]
    constructor
    · intro hNone hSame
      cases hNone hSame
    · intro hOther hSame
      exact absurd hSame hOther
  · intro hCount
    rw [if_pos ((eq_iff_count_eq b other).mpr hCount)] at hCarry
    refine ⟨_, hCarry, ?_, fun row bucket hBucket => test_eq_of_carry hCarry hBucket⟩
    intro row hRow
    have hAbsent : Operation.present row = none := by rcases hRow with rfl | rfl <;> rfl
    rw [TermPredicate.test_of_absent hAbsent]
    rfl

/-- The bucket of a price is asked for, in the set that the literals have in their normal form. -/
theorem project_bucketed_price :
    (⟨8, by decide⟩ : Bucketer).project .strict "bucket" ⟨.notIn,
        .bucketed ⟨100, by decide⟩ ⟨"price", .decimal 9 2⟩, .set [.int32 3, .int32 59]⟩ = .ok none ∧
      ∃ q, (⟨100, by decide⟩ : Bucketer).project .strict "bucket" ⟨.notIn,
          .bucketed ⟨100, by decide⟩ ⟨"price", .decimal 9 2⟩, .set [.int32 3, .int32 59]⟩ = .ok (some q) ∧
        q.test (some (.int32 59)) = .ok false ∧ q.test none = .ok true := by
  have hMake : TermPredicate.make .notIn (.bucketed ⟨100, by decide⟩ ⟨"price", .decimal 9 2⟩)
      (.set [.int32 59, .int32 3, .int32 59]) = .ok ⟨.notIn,
        .bucketed ⟨100, by decide⟩ ⟨"price", .decimal 9 2⟩, .set [.int32 3, .int32 59]⟩ := rfl
  have hBucket : (⟨100, by decide⟩ : Bucketer).bucketOf (.decimal 9 2)
      (some (.decimal ⟨9, 2, ⟨1420⟩⟩)) = .ok (some 59) := rfl
  obtain ⟨hOther, hNone, -⟩ := project_bucketed ⟨8, by decide⟩ "bucket" hMake
  obtain ⟨hSame, -, hSome⟩ := project_bucketed ⟨100, by decide⟩ "bucket" hMake
  obtain ⟨q, hq, hAbsent, hTest⟩ := hSome rfl
  refine ⟨(hOther .strict).trans (hNone.mpr (by decide)), q, (hSame .strict).trans hq, ?_, ?_⟩
  · exact (hTest _ _ hBucket).trans rfl
  · exact (hAbsent (some .null) (.inr rfl)).trans rfl

end Bucketer

end Bucketing
