import Bucketing.Projection
import Bucketing.Proofs.Bucketer.Assigner
import Bucketing.Proofs.Predicate.Typing

/-! # Projections are sound

Equal values are in one bucket, so the bucket of a row that matches is among the buckets of the
literals it can equal, and a row whose bucket is none of theirs equals none of them. A predicate on
a bucket is carried over unchanged, and null tests see the same nulls.
-/
namespace Bucketing

theorem mem_insertAscending_iff (n m : Int32) (ns : List Int32) :
    m ∈ insertAscending n ns ↔ m = n ∨ m ∈ ns := by
  induction ns with
  | nil => simp [insertAscending]
  | cons k ns ih =>
    rw [insertAscending]
    split
    · exact List.mem_cons
    · split
      · next hEq =>
        rw [hEq, List.mem_cons, or_self_left]
      · rw [List.mem_cons, ih, List.mem_cons]
        exact or_left_comm

theorem mem_foldl_insertAscending_iff (ns sorted : List Int32) (m : Int32) :
    m ∈ ns.foldl (fun sorted n => insertAscending n sorted) sorted ↔ m ∈ ns ∨ m ∈ sorted := by
  induction ns generalizing sorted with
  | nil => simp
  | cons n ns ih =>
    rw [List.foldl_cons, ih, mem_insertAscending_iff, List.mem_cons]
    exact or_left_comm.trans or_assoc.symm

theorem mem_ascending_iff (ns : List Int32) (m : Int32) : m ∈ ascending ns ↔ m ∈ ns := by
  rw [ascending, mem_foldl_insertAscending_iff]
  simp

namespace Assigner

variable (a : Assigner)

theorem assignLiteral_eq_ok_iff {v : Value} {k : Int32} :
    a.assignLiteral v = .ok k ↔ a.assign v = .ok (some k) := by
  rw [assignLiteral, Outcome.bind_eq_ok_iff]
  constructor
  · rintro ⟨bucket, hBucket, h⟩
    cases bucket with
    | none => cases h
    | some m =>
      cases h
      exact hBucket
  · intro h
    exact ⟨some k, h, rfl⟩

theorem assignLiterals_eq_mapM (vs : List Value) : a.assignLiterals vs = vs.mapM a.assignLiteral := by
  induction vs with
  | nil => rfl
  | cons v vs ih => rw [assignLiterals, List.mapM_cons, ih]

theorem exists_mem_of_assignLiterals {vs : List Value} {ks : List Int32}
    (h : a.assignLiterals vs = .ok ks) : ∀ v ∈ vs, ∃ k ∈ ks, a.assign v = .ok (some k) := by
  simp only [← a.assignLiteral_eq_ok_iff]
  rw [assignLiterals_eq_mapM] at h
  exact Outcome.exists_mem_of_mapM h

theorem exists_of_mem_assignLiterals {vs : List Value} {ks : List Int32}
    (h : a.assignLiterals vs = .ok ks) : ∀ k ∈ ks, ∃ v ∈ vs, a.assign v = .ok (some k) := by
  simp only [← a.assignLiteral_eq_ok_iff]
  rw [assignLiterals_eq_mapM] at h
  exact Outcome.exists_of_mem_mapM h

theorem mem_iff_of_assignLiterals {vs : List Value} {ks : List Int32}
    (h : a.assignLiterals vs = .ok ks) (k : Int32) :
    k ∈ ks ↔ ∃ v ∈ vs, a.assign v = .ok (some k) := by
  refine ⟨a.exists_of_mem_assignLiterals h k, ?_⟩
  rintro ⟨v, hv, hk⟩
  obtain ⟨m, hm, hAssign⟩ := a.exists_mem_of_assignLiterals h v hv
  cases hk.symm.trans hAssign
  exact hm

end Assigner

theorem NamedPredicate.make_of_wellShaped {op : Operation} {operand : Operand}
    (h : wellShaped op operand = true) (name : String) :
    make op name operand = .ok ⟨op, name, operand⟩ := by
  rw [make, if_pos h]

theorem NamedPredicate.eq_of_make {op : Operation} {name : String} {operand : Operand}
    {q : NamedPredicate} (h : some <$> make op name operand = .ok (some q)) :
    q = ⟨op, name, operand⟩ := by
  rw [make] at h
  split at h <;> cases h
  rfl

/-- The projections of a predicate on a column, each with the buckets it was made from. -/
inductive Projected (a : Assigner) (name : String) (term : Term) :
    Direction → TermPredicate → NamedPredicate → Prop where
  | isNull (direction : Direction) :
    Projected a name term direction ⟨.isNull, term, .none⟩ ⟨.isNull, name, .none⟩
  | notNull (direction : Direction) :
    Projected a name term direction ⟨.notNull, term, .none⟩ ⟨.notNull, name, .none⟩
  | equal {v : Value} {k : Int32} (h : a.assign v = .ok (some k)) :
    Projected a name term .inclusive ⟨.equal, term, .literal v⟩ ⟨.equal, name, .literal (.int32 k)⟩
  | notEqual {v : Value} {k : Int32} (h : a.assign v = .ok (some k)) :
    Projected a name term .strict ⟨.notEqual, term, .literal v⟩ ⟨.notEqual, name, .literal (.int32 k)⟩
  | isIn {vs : List Value} {ks : List Int32} (h : a.assignLiterals vs = .ok ks) :
    Projected a name term .inclusive ⟨.isIn, term, .set vs⟩
      ⟨.isIn, name, .set (Literals.normalize ((ascending ks).map .int32))⟩
  | notIn {vs : List Value} {ks : List Int32} (h : a.assignLiterals vs = .ok ks) :
    Projected a name term .strict ⟨.notIn, term, .set vs⟩
      ⟨.notIn, name, .set (Literals.normalize ((ascending ks).map .int32))⟩

theorem Bucketer.projected_of_projectColumn {b : Bucketer} {direction : Direction} {name : String}
    {type : ColumnType} {p : TermPredicate} {q : NamedPredicate}
    (h : b.projectColumn direction name type p = .ok (some q)) :
    ∃ a, b.bind type = .ok a ∧ Projected a name p.term direction p q := by
  obtain ⟨op, term, operand⟩ := p
  rw [projectColumn, Outcome.bind_eq_ok_iff] at h
  obtain ⟨a, ha, h⟩ := h
  refine ⟨a, ha, ?_⟩
  dsimp only at h ⊢
  split at h
  · rw [NamedPredicate.eq_of_make h]
    exact .isNull direction
  · rw [NamedPredicate.eq_of_make h]
    exact .notNull direction
  · obtain ⟨k, hk, h⟩ := Outcome.bind_eq_ok_iff.mp h
    rw [NamedPredicate.eq_of_make h]
    exact .equal (a.assignLiteral_eq_ok_iff.mp hk)
  · obtain ⟨k, hk, h⟩ := Outcome.bind_eq_ok_iff.mp h
    rw [NamedPredicate.eq_of_make h]
    exact .notEqual (a.assignLiteral_eq_ok_iff.mp hk)
  · obtain ⟨ks, hks, h⟩ := Outcome.bind_eq_ok_iff.mp h
    rw [NamedPredicate.eq_of_make h]
    exact .isIn hks
  · obtain ⟨ks, hks, h⟩ := Outcome.bind_eq_ok_iff.mp h
    rw [NamedPredicate.eq_of_make h]
    exact .notIn hks
  · cases h

theorem exists_eq_int32_of_mem_buckets (ks : List Int32) :
    ∀ v ∈ Literals.normalize ((ascending ks).map .int32), ∃ m, v = .int32 m := by
  intro v hv
  obtain ⟨m, -, rfl⟩ := List.mem_map.mp (Literals.mem_of_mem_normalize _ v hv)
  exact ⟨m, rfl⟩

theorem NamedPredicate.wellShaped_buckets {op : Operation} (hOp : op.takesSet = true)
    (ks : List Int32) :
    wellShaped op (.set (Literals.normalize ((ascending ks).map .int32))) = true := by
  rw [wellShaped, hOp, Bool.true_and, List.all_eq_true]
  intro v hv
  obtain ⟨m, rfl⟩ := exists_eq_int32_of_mem_buckets ks v hv
  rfl

/-- A set of buckets finds a bucket exactly if it is one of them. -/
theorem exists_equalsAny_buckets (k : Int32) (ks : List Int32) :
    ∃ found, Operation.equalsAny (some (.int32 k))
        (Literals.normalize ((ascending ks).map .int32)) = .ok found ∧ (found = true ↔ k ∈ ks) := by
  obtain ⟨found, hFound, hIff⟩ := Operation.equalsAny_int32 k (exists_eq_int32_of_mem_buckets ks)
  refine ⟨found, hFound, ?_⟩
  rw [hIff, Literals.mem_normalize_int32_iff, mem_ascending_iff]

namespace TermPredicate

theorem test_column (op : Operation) (c : Column) (operand : Operand) (row : Option Value) :
    test ⟨op, .column c, operand⟩ row = op.testPresent (Operation.present row) operand := by
  rw [test_of_eval (Term.eval_column c row), Operation.test, Operation.present_present]

/-- The bucket of a row is the value of the term on its bucket. -/
theorem test_bucketed {op : Operation} {b : Bucketer} {c : Column} {operand : Operand}
    {row : Option Value} {bucket : Option Int32} (h : b.bucketOf c.type row = .ok bucket) :
    test ⟨op, .bucketed b c, operand⟩ row = op.test (bucket.map .int32) operand := by
  obtain ⟨a, ha, hRow⟩ := Outcome.bind_eq_ok_iff.mp h
  have hEval : (Term.bucketed b c).eval row = .ok (bucket.map .int32) := by
    rw [Term.eval]
    rcases a.assignRow_eq_ok hRow with ⟨hNone, rfl⟩ | ⟨v, k, rfl, hPresent, rfl, -⟩
    · rw [hNone]
      rfl
    · rw [hPresent]
      dsimp only
      rw [h]
      rfl
  exact test_of_eval hEval

end TermPredicate

theorem NamedPredicate.test_bucket (op : Operation) (name : String) (operand : Operand)
    (bucket : Option Int32) :
    test ⟨op, name, operand⟩ (bucket.map .int32) = op.testPresent (bucket.map .int32) operand := by
  cases bucket <;> rfl

namespace Projected

variable {a : Assigner} {name : String} {c : Column} {p : TermPredicate} {q : NamedPredicate}
  {row : Option Value} {bucket : Option Int32}

/-- A null test says the same of a row and of its bucket. -/
theorem test_isNull (hBucket : a.assignRow row = .ok bucket) :
    TermPredicate.test ⟨.isNull, .column c, .none⟩ row =
      NamedPredicate.test ⟨.isNull, name, .none⟩ (bucket.map .int32) := by
  rw [TermPredicate.test_column, NamedPredicate.test_bucket, Operation.testPresent,
    Operation.testPresent, ← Option.not_isSome, ← Option.not_isSome, a.isSome_present hBucket,
    Option.isSome_map]

theorem test_notNull (hBucket : a.assignRow row = .ok bucket) :
    TermPredicate.test ⟨.notNull, .column c, .none⟩ row =
      NamedPredicate.test ⟨.notNull, name, .none⟩ (bucket.map .int32) := by
  rw [TermPredicate.test_column, NamedPredicate.test_bucket, Operation.testPresent,
    Operation.testPresent, a.isSome_present hBucket, Option.isSome_map]

theorem inclusive_sound (h : Projected a name (.column c) .inclusive p q)
    (hRow : ∀ v, row = some v → v.wellMade = true)
    (hLiterals : ∀ v ∈ p.operand.literals, v.wellMade = true)
    (hBucket : a.assignRow row = .ok bucket) (hTest : p.test row = .ok true) :
    q.test (bucket.map .int32) = .ok true := by
  cases h with
  | isNull => exact (test_isNull hBucket).symm.trans hTest
  | notNull => exact (test_notNull hBucket).symm.trans hTest
  | @equal w m hw =>
    rw [TermPredicate.test_column, Operation.testPresent] at hTest
    obtain ⟨o, ho, hEq⟩ := Outcome.map_eq_ok_iff.mp hTest
    rw [beq_iff_eq.mp hEq] at ho
    have hwMade : w.wellMade = true := hLiterals w List.mem_cons_self
    rw [a.bucket_eq_of_compareWith_eq hRow hwMade hBucket hw ho, NamedPredicate.test_bucket,
      Operation.testPresent, Option.map_some, (Operation.compareWith_int32_eq_iff m m).mpr rfl]
    rfl
  | @isIn vs ks hks =>
    rw [TermPredicate.test_column, Operation.testPresent] at hTest
    obtain ⟨w, hMem, hEq⟩ := Operation.exists_of_equalsAny hTest
    obtain ⟨m, hm, hw⟩ := a.exists_mem_of_assignLiterals hks w hMem
    obtain ⟨found, hFound, hIff⟩ := exists_equalsAny_buckets m ks
    rw [a.bucket_eq_of_compareWith_eq hRow (hLiterals w hMem) hBucket hw hEq,
      NamedPredicate.test_bucket, Operation.testPresent, Option.map_some, hFound, hIff.mpr hm]

theorem strict_sound (h : Projected a name (.column c) .strict p q)
    (hRow : ∀ v, row = some v → v.wellMade = true)
    (hLiterals : ∀ v ∈ p.operand.literals, v.wellMade = true)
    (hBucket : a.assignRow row = .ok bucket) (hTest : q.test (bucket.map .int32) = .ok true) :
    p.test row = .ok true := by
  cases h with
  | isNull => exact (test_isNull hBucket).trans hTest
  | notNull => exact (test_notNull hBucket).trans hTest
  | @notEqual w m hw =>
    have hwMade : w.wellMade = true := hLiterals w List.mem_cons_self
    obtain ⟨o, ho⟩ := a.exists_compareWith hRow hwMade hBucket hw
    have hNe : o ≠ some .eq := by
      rintro rfl
      rw [a.bucket_eq_of_compareWith_eq hRow hwMade hBucket hw ho, NamedPredicate.test_bucket,
        Operation.testPresent, Option.map_some, (Operation.compareWith_int32_eq_iff m m).mpr rfl] at hTest
      cases hTest
    rw [TermPredicate.test_column, Operation.testPresent, ho, ← bne_iff_ne.mpr hNe]
    rfl
  | @notIn vs ks hks =>
    have hComparable : ∀ w ∈ vs, ∃ o, Operation.compareWith (Operation.present row) w = .ok o := by
      intro w hMem
      obtain ⟨m, -, hw⟩ := a.exists_mem_of_assignLiterals hks w hMem
      exact a.exists_compareWith hRow (hLiterals w hMem) hBucket hw
    obtain ⟨found, hFound, hIff⟩ := Operation.equalsAny_of_comparable hComparable
    rw [TermPredicate.test_column, Operation.testPresent, hFound]
    cases found with
    | false => rfl
    | true =>
      obtain ⟨w, hMem, hEq⟩ := hIff.mp rfl
      obtain ⟨m, hm, hw⟩ := a.exists_mem_of_assignLiterals hks w hMem
      obtain ⟨found, hFound, hIff⟩ := exists_equalsAny_buckets m ks
      rw [a.bucket_eq_of_compareWith_eq hRow (hLiterals w hMem) hBucket hw hEq,
        NamedPredicate.test_bucket, Operation.testPresent, Option.map_some, hFound, hIff.mpr hm] at hTest
      cases hTest

end Projected

namespace Bucketer

/-- A predicate on the bucket is carried over as it is. -/
theorem test_eq_of_carry {b other : Bucketer} {c : Column} {op : Operation} {operand : Operand}
    {name : String} {q : NamedPredicate} {row : Option Value} {bucket : Option Int32}
    (h : b.carry name ⟨op, .bucketed other c, operand⟩ = .ok (some q))
    (hBucket : b.bucketOf c.type row = .ok bucket) :
    q.test (bucket.map .int32) = TermPredicate.test ⟨op, .bucketed other c, operand⟩ row := by
  rw [carry] at h
  dsimp only at h
  split at h
  · next hSame =>
    subst hSame
    rw [NamedPredicate.eq_of_make h, TermPredicate.test_bucketed hBucket]
    rfl
  · cases h

variable {b : Bucketer} {name : String} {p : TermPredicate} {q : NamedPredicate} {row : Option Value}
  {bucket : Option Int32}

/-- No bucket with a row that matches is pruned. -/
theorem project_inclusive_sound (hRow : ∀ v, row = some v → v.wellMade = true)
    (hLiterals : ∀ v ∈ p.operand.literals, v.wellMade = true)
    (hBucket : b.bucketOf p.term.origin.type row = .ok bucket) (hTest : p.test row = .ok true)
    (hProject : b.project .inclusive name p = .ok (some q)) :
    q.test (bucket.map .int32) = .ok true := by
  obtain ⟨op, term, operand⟩ := p
  cases term with
  | bucketed other c =>
    rw [test_eq_of_carry hProject hBucket]
    exact hTest
  | column c =>
    obtain ⟨a, ha, hProjected⟩ := projected_of_projectColumn hProject
    obtain ⟨a', ha', hAssign⟩ := Outcome.bind_eq_ok_iff.mp hBucket
    cases ha.symm.trans ha'
    exact hProjected.inclusive_sound hRow hLiterals hAssign hTest

/-- Whether a record is one of a zero and a NaN. -/
def isZeroOrNaN : TermPredicate where
  op := .isIn
  term := .column ⟨"key", Record.type (Record.measurement 0)⟩
  operand := .set [.record (Record.measurement 0), .record (Record.measurement 0x7ff8000000000001)]

theorem project_inclusive_sound_nan_payload :
    isZeroOrNaN.test (some (.record (Record.measurement 0xfff0000000000002))) = .ok true ∧
      NamedPredicate.test ⟨.isIn, "bucket", .set [.int32 2, .int32 4]⟩ (some (.int32 2)) = .ok true := by
  have hTest : isZeroOrNaN.test (some (.record (Record.measurement 0xfff0000000000002))) = .ok true := rfl
  have hBucket : (⟨8, by decide⟩ : Bucketer).bucketOf isZeroOrNaN.term.origin.type
      (some (.record (Record.measurement 0xfff0000000000002))) = .ok (some 2) := rfl
  have hProject : (⟨8, by decide⟩ : Bucketer).project .inclusive "bucket" isZeroOrNaN =
      .ok (some ⟨.isIn, "bucket", .set [.int32 2, .int32 4]⟩) := rfl
  refine ⟨hTest, project_inclusive_sound ?_ ?_ hBucket hTest hProject⟩
  · rintro v ⟨⟩
    rfl
  · exact List.forall_mem_cons.mpr ⟨rfl, List.forall_mem_singleton.mpr rfl⟩

/-- In a bucket that is kept whole every row matches. -/
theorem project_strict_sound (hRow : ∀ v, row = some v → v.wellMade = true)
    (hLiterals : ∀ v ∈ p.operand.literals, v.wellMade = true)
    (hBucket : b.bucketOf p.term.origin.type row = .ok bucket)
    (hProject : b.project .strict name p = .ok (some q))
    (hTest : q.test (bucket.map .int32) = .ok true) : p.test row = .ok true := by
  obtain ⟨op, term, operand⟩ := p
  cases term with
  | bucketed other c =>
    rw [← test_eq_of_carry hProject hBucket]
    exact hTest
  | column c =>
    obtain ⟨a, ha, hProjected⟩ := projected_of_projectColumn hProject
    obtain ⟨a', ha', hAssign⟩ := Outcome.bind_eq_ok_iff.mp hBucket
    cases ha.symm.trans ha'
    exact hProjected.strict_sound hRow hLiterals hAssign hTest

/-- Whether a record differs from one with a NaN. -/
def isNotNaN : TermPredicate where
  op := .notIn
  term := .column ⟨"key", Record.type (Record.measurement 0)⟩
  operand := .set [.record (Record.measurement 0x7ff8000000000001)]

theorem project_strict_sound_zero :
    NamedPredicate.test ⟨.notIn, "bucket", .set [.int32 2]⟩ (some (.int32 4)) = .ok true ∧
      isNotNaN.test (some (.record (Record.measurement 0))) = .ok true := by
  have hTest : NamedPredicate.test ⟨.notIn, "bucket", .set [.int32 2]⟩ (some (.int32 4)) = .ok true := rfl
  have hBucket : (⟨8, by decide⟩ : Bucketer).bucketOf isNotNaN.term.origin.type
      (some (.record (Record.measurement 0))) = .ok (some 4) := rfl
  have hProject : (⟨8, by decide⟩ : Bucketer).project .strict "bucket" isNotNaN =
      .ok (some ⟨.notIn, "bucket", .set [.int32 2]⟩) := rfl
  refine ⟨hTest, project_strict_sound ?_ ?_ hBucket hProject hTest⟩
  · rintro v ⟨⟩
    rfl
  · exact List.forall_mem_singleton.mpr rfl

end Bucketer

end Bucketing
