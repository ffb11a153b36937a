import Bucketing.Proofs.Projection.LiteralSets

/-! # The shape of projections

What is projected from a column need not have been checked: its operand may be of another shape than
its operation takes, and its literals null, mistyped, unsorted or repeated. There is a projection
exactly if the operation survives in the direction and every literal has a bucket, and then it keeps the
operation and asks it of the buckets. Those of a set are listed once each, in ascending order.
-/
namespace Bucketing

/-- The buckets of the literals, each once and in ascending order, and no others. -/
structure Bucketer.Lists (b : Bucketer) (t : ColumnType) (vs : List Value) (ks : List Int32) : Prop where
  ascending : ks.Pairwise (· < ·)
  inRange : ∀ k ∈ ks, 0 ≤ k ∧ k < b.count
  complete : ∀ v ∈ vs, ∃ k ∈ ks, b.bucketOf t (some v) = .ok (some k)
  sound : ∀ k ∈ ks, ∃ v ∈ vs, b.bucketOf t (some v) = .ok (some k)

/-- The operand that is asked of a bucket where another one is asked of the column: none, the bucket of
the literal, or the buckets of the literals. -/
inductive Bucketer.ProjectsOperand (b : Bucketer) (t : ColumnType) (direction : Direction)
    (op : Operation) : Operand → Operand → Prop where
  | none (isNullTest : op = .isNull ∨ op = .notNull) : ProjectsOperand b t direction op .none .none
  | literal {v : Value} {k : Int32}
      (survives : direction = .inclusive ∧ op = .equal ∨ direction = .strict ∧ op = .notEqual)
      (bucket : b.bucketOf t (some v) = .ok (some k)) (inRange : 0 ≤ k ∧ k < b.count) :
      ProjectsOperand b t direction op (.literal v) (.literal (.int32 k))
  | set {vs : List Value} {ks : List Int32}
      (survives : direction = .inclusive ∧ op = .isIn ∨ direction = .strict ∧ op = .notIn)
      (lists : b.Lists t vs ks) : ProjectsOperand b t direction op (.set vs) (.set (ks.map .int32))

namespace Assigner

variable (a : Assigner) {vs : List Value} {ks : List Int32}

theorem inRange_of_assign {v : Value} {k : Int32} (h : a.assign v = .ok (some k)) :
    0 ≤ k ∧ k < a.bucketer.count := by
  obtain ⟨-, -, hHash⟩ := a.assign_eq_ok_some h
  obtain ⟨n, -, rfl⟩ := Outcome.map_eq_ok_iff.mp hHash
  exact ⟨a.bucketer.ofHash_nonneg n, a.bucketer.ofHash_lt n⟩

theorem exists_assignLiterals (h : ∀ v ∈ vs, ∃ k, a.assign v = .ok (some k)) :
    ∃ ks, a.assignLiterals vs = .ok ks := by
  simp only [← a.assignLiteral_eq_ok_iff] at h
  rw [assignLiterals_eq_mapM]
  exact Outcome.exists_mapM_iff.mpr h

end Assigner

namespace Bucketer

variable {b : Bucketer} {t : ColumnType} {a : Assigner} {direction : Direction} {name : String}
  {p : TermPredicate} {q : NamedPredicate}

theorem lists_iff (hBind : b.bind t = .ok a) {vs : List Value} {ks : List Int32} :
    b.Lists t vs ks ↔ ∃ ms, a.assignLiterals vs = .ok ms ∧ ks = ascending ms := by
  have hBucket (v : Value) : b.bucketOf t (some v) = a.assign v := bucketOf_of_bind hBind (some v)
  constructor
  · rintro ⟨hAscending, -, hComplete, hSound⟩
    simp only [hBucket] at hComplete hSound
    obtain ⟨ms, hms⟩ := a.exists_assignLiterals fun v hv => (hComplete v hv).imp fun _ h => h.2
    refine ⟨ms, hms, eq_ascending hAscending fun k => ?_⟩
    rw [a.mem_iff_of_assignLiterals hms]
    refine ⟨hSound k, ?_⟩
    rintro ⟨v, hv, hk⟩
    obtain ⟨m, hm, hAssign⟩ := hComplete v hv
    cases hk.symm.trans hAssign
    exact hm
  · rintro ⟨ms, hms, rfl⟩
    have hMem (k : Int32) : k ∈ ascending ms ↔ ∃ v ∈ vs, a.assign v = .ok (some k) := by
      rw [mem_ascending_iff, a.mem_iff_of_assignLiterals hms]
    refine ⟨pairwise_ascending ms, ?_, ?_, ?_⟩
    · intro k hk
      obtain ⟨v, -, hAssign⟩ := (hMem k).mp hk
      rw [← bucketer_eq_of_bind hBind]
      exact a.inRange_of_assign hAssign
    · intro v hv
      obtain ⟨k, hk, hAssign⟩ := a.exists_mem_of_assignLiterals hms v hv
      exact ⟨k, (mem_ascending_iff ms k).mpr hk, (hBucket v).trans hAssign⟩
    · intro k hk
      obtain ⟨v, hv, hAssign⟩ := (hMem k).mp hk
      exact ⟨v, hv, (hBucket v).trans hAssign⟩

theorem makeNormal_buckets {op : Operation} (hOp : op.takesSet = true) (ks : List Int32) :
    NamedPredicate.makeNormal op name (.set ((ascending ks).map .int32)) =
      .ok ⟨op, name, .set (Literals.normalize ((ascending ks).map .int32))⟩ :=
  NamedPredicate.make_of_wellShaped (NamedPredicate.wellShaped_buckets hOp ks) name

theorem projectColumn_eq_ok_some_iff :
    b.projectColumn direction name t p = .ok (some q) ↔
      ∃ a, b.bind t = .ok a ∧ Projected a name p.term direction p q := by
  refine ⟨projected_of_projectColumn, ?_⟩
  obtain ⟨op, term, operand⟩ := p
  rintro ⟨a, hBind, h⟩
  rw [projectColumn, hBind]
  cases h with
  | isNull | notNull => rfl
  | equal h | notEqual h =>
    change a.assignLiteral _ >>= _ = _
    rw [a.assignLiteral_eq_ok_iff.mpr h]
    rfl
  | isIn h | notIn h =>
    change a.assignLiterals _ >>= _ = _
    rw [h]
    exact congrArg (some <$> ·) (makeNormal_buckets rfl _)

/-- The buckets of a set are in their normal form as soon as they are in ascending order. -/
theorem normalize_ascending (ks : List Int32) :
    Literals.normalize ((ascending ks).map .int32) = (ascending ks).map .int32 := by
  rw [Literals.normalize_int32, ascending_congr (mem_ascending_iff ks)]

theorem projectsOperand_of_projected {term : Term} (hBind : b.bind t = .ok a)
    (h : Projected a name term direction p q) : b.ProjectsOperand t direction p.op p.operand q.operand := by
  have hLiteral {v : Value} {k : Int32} (hk : a.assign v = .ok (some k)) :
      b.bucketOf t (some v) = .ok (some k) ∧ 0 ≤ k ∧ k < b.count := by
    rw [bucketOf_of_bind hBind, ← bucketer_eq_of_bind hBind]
    exact ⟨hk, a.inRange_of_assign hk⟩
  have hSet {vs : List Value} {ks : List Int32} (hks : a.assignLiterals vs = .ok ks) :
      b.Lists t vs (ascending ks) := (lists_iff hBind).mpr ⟨ks, hks, rfl⟩
  cases h with
  | isNull => exact .none (.inl rfl)
  | notNull => exact .none (.inr rfl)
  | equal hk => exact .literal (.inl ⟨rfl, rfl⟩) (hLiteral hk).1 (hLiteral hk).2
  | notEqual hk => exact .literal (.inr ⟨rfl, rfl⟩) (hLiteral hk).1 (hLiteral hk).2
  | isIn hks =>
    rw [normalize_ascending]
    exact .set (.inl ⟨rfl, rfl⟩) (hSet hks)
  | notIn hks =>
    rw [normalize_ascending]
    exact .set (.inr ⟨rfl, rfl⟩) (hSet hks)

theorem projected_of_projectsOperand {op : Operation} {term : Term} {operand operand' : Operand}
    (hBind : b.bind t = .ok a) (h : b.ProjectsOperand t direction op operand operand') :
    Projected a name term direction ⟨op, term, operand⟩ ⟨op, name, operand'⟩ := by
  cases h with
  | none isNullTest =>
    rcases isNullTest with rfl | rfl
    · exact .isNull direction
    · exact .notNull direction
  | literal survives hBucket =>
    rw [bucketOf_of_bind hBind] at hBucket
    rcases survives with ⟨rfl, rfl⟩ | ⟨rfl, rfl⟩
    · exact .equal hBucket
    · exact .notEqual hBucket
  | set survives lists =>
    obtain ⟨ms, hms, rfl⟩ := (lists_iff hBind).mp lists
    rw [← normalize_ascending]
    rcases survives with ⟨rfl, rfl⟩ | ⟨rfl, rfl⟩
    · exact .isIn hms
    · exact .notIn hms

/-- A predicate on a column, checked or not, is projected exactly if the column can be bucketed, the
operation survives in the direction with an operand of its own shape, and each literal has a bucket.
Then the projection has the given name and the same operation, and its operand is that on buckets. -/
theorem project_column_eq_ok_some_iff (b : Bucketer) (direction : Direction) (name : String)
    (op : Operation) (c : Column) (operand : Operand) (q : NamedPredicate) :
    b.project direction name ⟨op, .column c, operand⟩ = .ok (some q) ↔
      canBucket c.type = true ∧ q.op = op ∧ q.name = name ∧
        b.ProjectsOperand c.type direction op operand q.operand := by
  refine projectColumn_eq_ok_some_iff.trans ?_
  constructor
  · rintro ⟨a, hBind, h⟩
    refine ⟨canBucket_of_bind hBind, ?_, ?_, projectsOperand_of_projected hBind h⟩
    · cases h <;> rfl
    · cases h <;> rfl
  · obtain ⟨qOp, qName, qOperand⟩ := q
    rintro ⟨hType, rfl, rfl, h⟩
    obtain ⟨a, hBind⟩ := b.exists_bind hType
    exact ⟨a, hBind, projected_of_projectsOperand hBind h⟩

/-- A set that is neither sorted nor free of repetitions, with two numbers of one bucket. -/
example : (⟨16, by decide⟩ : Bucketer).project .strict "bucket"
    ⟨.notIn, .column ⟨"id", .int32⟩, .set [.int32 5, .int32 34, .int32 7, .int32 5]⟩ =
      .ok (some ⟨.notIn, "bucket", .set [.int32 3, .int32 7]⟩) := rfl

end Bucketer

end Bucketing
