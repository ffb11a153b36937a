import Bucketing.Proofs.Predicate.Typing
import Bucketing.Proofs.Projection

/-! # Projections are well typed

A projection is asked of a column of buckets. Either its literals are buckets, or it is a predicate
on buckets that was carried over, so it has an answer for every bucket.
-/
namespace Bucketing

theorem Value.exists_eq_int32_of_fits {v : Value} (hNull : v.isNull = false)
    (h : v.fits .int32 = true) : ∃ n, v = .int32 n := by
  match v, kind?_of_fits hNull h with
  | .int32 n, _ => exact ⟨n, rfl⟩

theorem Operand.Suits.exists_eq_int32 {op : Operation} {operand : Operand}
    (h : operand.Suits op .int32) : ∀ v ∈ operand.literals, ∃ n, v = .int32 n := by
  intro v hv
  exact Value.exists_eq_int32_of_fits (NamedPredicate.isNull_of_wellShaped h.shaped hv) (h.fits v hv)

namespace Projected

variable {a : Assigner} {name : String} {term : Term} {direction : Direction} {p : TermPredicate}
  {q : NamedPredicate}

theorem wellShaped (h : Projected a name term direction p q) :
    NamedPredicate.wellShaped q.op q.operand = true := by
  cases h with
  | isNull | notNull | equal | notEqual => rfl
  | isIn | notIn => exact NamedPredicate.wellShaped_buckets rfl _

theorem suits (h : Projected a name term direction p q) : q.operand.Suits q.op Bucketer.resultType := by
  have hBuckets : ∀ v ∈ q.operand.literals, ∃ m, v = .int32 m := by
    cases h with
    | isNull | notNull => nofun
    | equal | notEqual => exact List.forall_mem_singleton.mpr ⟨_, rfl⟩
    | isIn | notIn => exact exists_eq_int32_of_mem_buckets _
  refine ⟨h.wellShaped, ?_, ?_⟩
  · intro v hv
    obtain ⟨m, rfl⟩ := hBuckets v hv
    rfl
  · cases h <;> rintro (hOp | hOp) <;> cases hOp

end Projected

theorem Bucketer.suits_of_carry {b other : Bucketer} {c : Column} {op : Operation} {operand : Operand}
    {name : String} {q : NamedPredicate} (hSuits : operand.Suits op resultType)
    (h : b.carry name ⟨op, .bucketed other c, operand⟩ = .ok (some q)) :
    q.operand.Suits q.op resultType := by
  rw [carry] at h
  dsimp only at h
  split at h
  · rw [NamedPredicate.eq_of_make h]
    exact hSuits
  · cases h

theorem Bucketer.suits_of_project {b : Bucketer} {direction : Direction} {name : String} {op : Operation}
    {term : Term} {operand : Operand} {q : NamedPredicate} (hSuits : operand.Suits op term.type)
    (h : b.project direction name ⟨op, term, operand⟩ = .ok (some q)) :
    q.operand.Suits q.op resultType := by
  cases term with
  | bucketed other c => exact suits_of_carry hSuits h
  | column c =>
    obtain ⟨a, -, hProjected⟩ := projected_of_projectColumn h
    exact hProjected.suits

theorem Bucketer.holds_resultType {row : Option Value}
    (h : row = none ∨ row = some .null ∨ ∃ n, row = some (.int32 n)) : resultType.Holds row := by
  rcases h with rfl | rfl | ⟨n, rfl⟩ <;> rintro v ⟨⟩
  · exact ⟨rfl, rfl⟩
  · exact ⟨rfl, rfl⟩

namespace TermPredicate

/-- A predicate that was made has an answer for every row that its column can have, and so has each
of its projections for every row of a column of buckets. -/
theorem exists_test_of_make {op : Operation} {term : Term} {operand : Operand} {p : TermPredicate}
    (hMake : make op term operand = .ok p) (hLiterals : ∀ v ∈ p.operand.literals, v.wellMade = true) :
    (∀ c row, term = .column c → c.type.Holds row → ∃ matched, p.test row = .ok matched) ∧
      ∀ (b : Bucketer) direction name q row, b.project direction name p = .ok (some q) →
        (row = none ∨ row = some .null ∨ ∃ n, row = some (.int32 n)) →
          ∃ matched, q.test row = .ok matched := by
  obtain ⟨operand, rfl, hSuits⟩ := suits_of_make hMake
  constructor
  · rintro c row rfl hRow
    rw [test_column]
    exact Operation.exists_test_of_suits hSuits hLiterals hRow
  · intro b direction name q row hProject hRow
    have hqSuits := Bucketer.suits_of_project hSuits hProject
    apply Operation.exists_test_of_suits hqSuits _ (Bucketer.holds_resultType hRow)
    intro v hv
    obtain ⟨n, rfl⟩ := hqSuits.exists_eq_int32 v hv
    rfl

/-- A key with a record beside it. -/
def nested (x : Value) : Record :=
  [(⟨1, "id", .int64, false⟩, .int64 7),
    (⟨2, "inner", .record [⟨3, "x", .float32, true⟩], true⟩, .record [(⟨3, "x", .float32, true⟩, x)])]

theorem exists_test_of_make_nested :
    (∃ matched, test ⟨.atMost, .column ⟨"key", Record.type (nested .null)⟩, .literal (.record (nested .null))⟩
        (some (.record (nested (.float32 (.nan .single true))))) = .ok matched) ∧
      ∃ matched, NamedPredicate.test ⟨.less, "bucket", .literal (.int32 3)⟩ (some (.int32 7)) =
        .ok matched := by
  have hColumn : make .atMost (.column ⟨"key", Record.type (nested .null)⟩)
      (.literal (.record (nested .null))) = .ok ⟨.atMost, .column ⟨"key", Record.type (nested .null)⟩,
        .literal (.record (nested .null))⟩ := rfl
  have hBucketed : make .less (.bucketed ⟨8, by decide⟩ ⟨"id", .int64⟩) (.literal (.int32 3)) =
      .ok ⟨.less, .bucketed ⟨8, by decide⟩ ⟨"id", .int64⟩, .literal (.int32 3)⟩ := rfl
  have hProject : (⟨8, by decide⟩ : Bucketer).project .strict "bucket"
      ⟨.less, .bucketed ⟨8, by decide⟩ ⟨"id", .int64⟩, .literal (.int32 3)⟩ =
        .ok (some ⟨.less, "bucket", .literal (.int32 3)⟩) := rfl
  constructor
  · apply (exists_test_of_make hColumn (List.forall_mem_singleton.mpr rfl)).1 _ _ rfl
    rintro v ⟨⟩
    exact ⟨rfl, rfl⟩
  · exact (exists_test_of_make hBucketed (List.forall_mem_singleton.mpr rfl)).2 _ _ _ _ _ hProject
      (.inr (.inr ⟨7, rfl⟩))

end TermPredicate

end Bucketing
