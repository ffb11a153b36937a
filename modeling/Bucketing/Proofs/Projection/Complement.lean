import Bucketing.Proofs.Predicate.Negation
import Bucketing.Proofs.Projection.Typing

/-! # Strict projections of negated predicates

The two directions mirror each other. What survives inclusively survives strictly once it is negated,
with the same buckets and only its operation negated, and what survives in neither way does so in
neither direction. No projection asks for an order, so negated projections answer oppositely.
-/
namespace Bucketing

namespace Operation

theorem isUnary_negate (op : Operation) : op.negate.isUnary = op.isUnary := by
  cases op <;> rfl

theorem takesLiteral_negate (op : Operation) : op.negate.takesLiteral = op.takesLiteral := by
  cases op <;> rfl

theorem takesSet_negate (op : Operation) : op.negate.takesSet = op.takesSet := by
  cases op <;> rfl

theorem asksPrefix_negate (op : Operation) :
    (op.negate = .startsWith ∨ op.negate = .notStartsWith) ↔
      (op = .startsWith ∨ op = .notStartsWith) := by
  cases op <;> decide

end Operation

def TermPredicate.negate (p : TermPredicate) : TermPredicate := { p with op := p.op.negate }

def NamedPredicate.negate (q : NamedPredicate) : NamedPredicate := { q with op := q.op.negate }

theorem NamedPredicate.wellShaped_negate (op : Operation) (operand : Operand) :
    wellShaped op.negate operand = wellShaped op operand := by
  cases operand with
  | none => exact Operation.isUnary_negate op
  | literal v => rw [wellShaped, wellShaped, Operation.takesLiteral_negate]
  | set vs => rw [wellShaped, wellShaped, Operation.takesSet_negate]

theorem Operand.Suits.negate {operand : Operand} {op : Operation} {t : ColumnType}
    (h : operand.Suits op t) : operand.Suits op.negate t where
  shaped := (NamedPredicate.wellShaped_negate op operand).trans h.shaped
  fits := h.fits
  text hPrefix := h.text ((Operation.asksPrefix_negate op).mp hPrefix)

theorem TermPredicate.make_negate {op : Operation} {term : Term} {operand : Operand}
    {p : TermPredicate} (h : make op term operand = .ok p) :
    make op.negate term operand = .ok p.negate := by
  obtain ⟨rfl, hSuits⟩ := make_eq_ok_iff.mp h
  exact make_eq_ok_iff.mpr ⟨rfl, hSuits.negate⟩

namespace Projected

variable {a : Assigner} {name : String} {term : Term} {direction : Direction} {p : TermPredicate}
  {q : NamedPredicate}

theorem not_isOrdering (h : Projected a name term direction p q) : q.op.isOrdering = false := by
  cases h <;> rfl

theorem exists_test_bucket (h : Projected a name term direction p q) (bucket : Option Int32) :
    ∃ matched, q.test (bucket.map .int32) = .ok matched := by
  apply Operation.exists_test_of_suits h.suits
  · intro v hv
    obtain ⟨n, rfl⟩ := h.suits.exists_eq_int32 v hv
    rfl
  · apply Bucketer.holds_resultType
    cases bucket with
    | none => exact .inl rfl
    | some k => exact .inr (.inr ⟨k, rfl⟩)

theorem test_bucket_iff (h : Projected a name term direction p q) (bucket : Option Int32)
    (matched : Bool) :
    q.test (bucket.map .int32) = .ok matched ↔ q.negate.test (bucket.map .int32) = .ok (!matched) := by
  obtain ⟨answer, hAnswer⟩ := h.exists_test_bucket bucket
  have hOpposite : q.negate.test (bucket.map .int32) = .ok (!answer) :=
    Operation.testPresent_negate_of_not_isOrdering h.not_isOrdering hAnswer
  rw [hAnswer, hOpposite, Except.ok.injEq, Except.ok.injEq, Bool.not_inj_iff]

end Projected

namespace Bucketer

variable (b : Bucketer) (name : String)

theorem projectColumn_negate (type : ColumnType) (p : TermPredicate) :
    b.projectColumn .strict name type p.negate =
      Option.map NamedPredicate.negate <$> b.projectColumn .inclusive name type p := by
  obtain ⟨op, term, operand⟩ := p
  rw [TermPredicate.negate, projectColumn, projectColumn]
  cases b.bind type with
  | error fault => rfl
  | ok a =>
    cases op with
    | equal =>
      cases operand with
      | literal v =>
        change (a.assignLiteral v >>= fun k => _) = _ <$> (a.assignLiteral v >>= fun k => _)
        cases a.assignLiteral v <;> rfl
      | _ => rfl
    | isIn =>
      cases operand with
      | set vs =>
        change (a.assignLiterals vs >>= fun ks => _) = _ <$> (a.assignLiterals vs >>= fun ks => _)
        cases a.assignLiterals vs with
        | error fault => rfl
        | ok ks =>
          change some <$> NamedPredicate.make .notIn name _ =
            Option.map _ <$> (some <$> NamedPredicate.make .isIn name _)
          rw [NamedPredicate.make_of_wellShaped (NamedPredicate.wellShaped_buckets rfl ks),
            NamedPredicate.make_of_wellShaped (NamedPredicate.wellShaped_buckets rfl ks)]
          rfl
      | _ => rfl
    -- Null tests are carried over in both directions, and nothing else survives in either.
    | _ => cases operand <;> rfl

variable {name} {op : Operation} {c : Column} {operand : Operand} {p : TermPredicate}

/-- The negation of a predicate on a column can be made whenever the predicate can. Its strict
projection fails or does not exist where the inclusive projection of the predicate does so, and
otherwise it answers oppositely for every bucket, and where there is none. -/
theorem project_negate (hMake : TermPredicate.make op (.column c) operand = .ok p) :
    ∃ negated, TermPredicate.make op.negate (.column c) operand = .ok negated ∧
      ((∃ fault, b.project .inclusive name p = .error fault ∧
          b.project .strict name negated = .error fault) ∨
        (b.project .inclusive name p = .ok none ∧ b.project .strict name negated = .ok none) ∨
        ∃ q r, b.project .inclusive name p = .ok (some q) ∧
          b.project .strict name negated = .ok (some r) ∧
            ∀ bucket : Option Int32, (∃ matched, q.test (bucket.map .int32) = .ok matched) ∧
              ∀ matched, q.test (bucket.map .int32) = .ok matched ↔
                r.test (bucket.map .int32) = .ok (!matched)) := by
  obtain ⟨rfl, -⟩ := TermPredicate.make_eq_ok_iff.mp hMake
  refine ⟨_, TermPredicate.make_negate hMake, ?_⟩
  have hStrict : b.project .strict name (TermPredicate.negate ⟨op, .column c, operand.normal⟩) =
      Option.map NamedPredicate.negate <$> b.project .inclusive name ⟨op, .column c, operand.normal⟩ :=
    b.projectColumn_negate name c.type ⟨op, .column c, operand.normal⟩
  rw [hStrict]
  cases hInclusive : b.project .inclusive name ⟨op, .column c, operand.normal⟩ with
  | error fault => exact .inl ⟨fault, rfl, rfl⟩
  | ok result =>
    cases result with
    | none => exact .inr (.inl ⟨rfl, rfl⟩)
    | some q =>
      obtain ⟨a, -, hProjected⟩ := projected_of_projectColumn hInclusive
      refine .inr (.inr ⟨q, q.negate, rfl, rfl, fun bucket => ?_⟩)
      exact ⟨hProjected.exists_test_bucket bucket, hProjected.test_bucket_iff bucket⟩

theorem project_negate_numbers :
    TermPredicate.make .isIn (.column ⟨"id", .int32⟩) (.set [.int32 34, .int32 5, .int32 34]) =
        .ok ⟨.isIn, .column ⟨"id", .int32⟩, .set [.int32 5, .int32 34]⟩ ∧
      ∃ q r, (⟨16, by decide⟩ : Bucketer).project .inclusive "bucket"
            ⟨.isIn, .column ⟨"id", .int32⟩, .set [.int32 5, .int32 34]⟩ = .ok (some q) ∧
          (⟨16, by decide⟩ : Bucketer).project .strict "bucket"
            ⟨.notIn, .column ⟨"id", .int32⟩, .set [.int32 5, .int32 34]⟩ = .ok (some r) ∧
        ∀ (bucket : Option Int32) matched, q.test (bucket.map .int32) = .ok matched ↔
          r.test (bucket.map .int32) = .ok (!matched) := by
  have hMake : TermPredicate.make .isIn (.column ⟨"id", .int32⟩)
      (.set [.int32 34, .int32 5, .int32 34]) =
        .ok ⟨.isIn, .column ⟨"id", .int32⟩, .set [.int32 5, .int32 34]⟩ := rfl
  obtain ⟨negated, hNegated, hCases⟩ := project_negate ⟨16, by decide⟩ hMake
  cases hNegated
  obtain ⟨fault, hFault, -⟩ | ⟨hNone, -⟩ | ⟨q, r, hq, hr, hTest⟩ := hCases
  · cases hFault
  · cases hNone
  · exact ⟨hMake, q, r, hq, hr, fun bucket => (hTest bucket).2⟩

end Bucketer

end Bucketing
