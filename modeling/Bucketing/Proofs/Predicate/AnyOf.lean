import Bucketing.Proofs.Predicate.NormalForm

/-! # Sets of literals say "any of"

A set is accepted where each of its literals is, and a row is in it if it equals one of them. A
literal that was dropped as a repetition is not missed: what equals it equals the one that was kept.
-/
namespace Bucketing

namespace Operation

variable {t : ColumnType} {row : Option Value} {v w : Value} {vs : List Value}

theorem compareWith_of_same (hRow : t.Holds row) (hwMade : w.wellMade = true) (hw : w.fits t = true)
    (hSame : Literals.same w v = true) (h : compareWith (present row) v = .ok (some .eq)) :
    compareWith (present row) w = .ok (some .eq) := by
  rcases present_eq_none_or row with hNone | ⟨u, hu, -, hPresent⟩
  · rw [hNone] at h
    cases h
  · rw [hPresent, compareWith] at h ⊢
    rcases Literals.eq_or_equal_of_same hSame with rfl | ⟨hEqual, -⟩
    · exact h
    · obtain ⟨huMade, huFits⟩ := hRow u hu
      exact Value.tryCompare_eq_trans huMade hwMade huFits hw h (Value.tryCompare_swap w v hEqual)

/-- The search of a normal form finds a row if any literal equals it, kept or not. -/
theorem equalsAny_normalize (hMade : ∀ v ∈ vs, v.wellMade = true)
    (hType : ∀ v ∈ vs, v.isNull = false ∧ v.fits t = true) (hRow : t.Holds row) :
    ∃ found, equalsAny (present row) (Literals.normalize vs) = .ok found ∧
      (found = true ↔ ∃ v ∈ vs, compareWith (present row) v = .ok (some .eq)) := by
  have hComparable : ∀ w ∈ Literals.normalize vs, ∃ o, compareWith (present row) w = .ok o := by
    intro w hw
    have hMem := Literals.mem_of_mem_normalize vs w hw
    exact exists_compareWith_of_holds hRow (hMade w hMem) (hType w hMem).2 (hType w hMem).1
  obtain ⟨found, hFound, hIff⟩ := equalsAny_of_comparable hComparable
  refine ⟨found, hFound, hIff.trans ?_⟩
  constructor
  · rintro ⟨w, hw, hEqual⟩
    exact ⟨w, Literals.mem_of_mem_normalize vs w hw, hEqual⟩
  · rintro ⟨v, hv, hEqual⟩
    obtain ⟨w, hw, rfl | hSame⟩ := Literals.exists_same_of_mem_normalize hv
    · exact ⟨w, hw, hEqual⟩
    · have hMem := Literals.mem_of_mem_normalize vs w hw
      exact ⟨w, hw, compareWith_of_same hRow (hMade w hMem) (hType w hMem).2 hSame hEqual⟩

end Operation

namespace TermPredicate

variable {op : Operation} {term : Term} {vs : List Value} {row value : Option Value}

theorem make_equal_eq_ok_iff {v : Value} {e : TermPredicate} :
    make .equal term (.literal v) = .ok e ↔
      e = ⟨.equal, term, .literal v⟩ ∧ v.isNull = false ∧ v.fits term.type = true := by
  rw [make_eq_ok_iff, Operand.normal, Operand.suits_literal_iff]
  · simp [Operation.takesLiteral]
  · simp

theorem exists_make_set_iff (hOp : op.takesSet = true) :
    (∃ p, make op term (.set vs) = .ok p) ↔ ∀ v ∈ vs, ∃ e, make .equal term (.literal v) = .ok e := by
  simp only [make_set_eq_ok_iff, make_equal_eq_ok_iff, exists_eq_left, hOp, true_and]

theorem exists_equal_iff_of_eval {v : Value} (hv : v.isNull = false ∧ v.fits term.type = true)
    (hEval : term.eval row = .ok value) :
    (∃ e, make .equal term (.literal v) = .ok e ∧ e.test row = .ok true) ↔
      Operation.compareWith (Operation.present value) v = .ok (some .eq) := by
  simp only [make_equal_eq_ok_iff, hv, and_self, and_true, exists_eq_left, test_of_eval hEval]
  change (· == some .eq) <$> Operation.compareWith (Operation.present value) v = .ok true ↔ _
  rw [Outcome.map_eq_ok_iff]
  simp

/-- A set is accepted exactly if each of its literals is. It then finds the rows that equal some
literal of the list as it was given, and its negation finds all others. -/
theorem set_iff_anyOf (hMade : ∀ v ∈ vs, v.wellMade = true) :
    (∀ op, op = .isIn ∨ op = .notIn → ((∃ p, make op term (.set vs) = .ok p) ↔
      ∀ v ∈ vs, ∃ e, make .equal term (.literal v) = .ok e)) ∧
    ∀ p q row, make .isIn term (.set vs) = .ok p → make .notIn term (.set vs) = .ok q →
      term.origin.type.Holds row → (∀ b c, term = .bucketed b c → ∃ value, term.eval row = .ok value) →
        ∃ found, p.test row = .ok found ∧ q.test row = .ok (!found) ∧
          (found = true ↔
            ∃ v ∈ vs, ∃ e, make .equal term (.literal v) = .ok e ∧ e.test row = .ok true) := by
  constructor
  · rintro op (rfl | rfl)
    · exact exists_make_set_iff rfl
    · exact exists_make_set_iff rfl
  · intro p q row hp hq hRow hBucket
    obtain ⟨value, hEval⟩ := term.exists_eval hBucket
    obtain ⟨rfl, -, hType⟩ := make_set_eq_ok_iff.mp hp
    obtain ⟨rfl, -, -⟩ := make_set_eq_ok_iff.mp hq
    obtain ⟨found, hFound, hIff⟩ :=
      Operation.equalsAny_normalize hMade hType (Term.holds_of_eval hRow hEval)
    refine ⟨found, ?_, ?_, ?_⟩
    · rw [test_of_eval hEval]
      exact hFound
    · rw [test_of_eval hEval]
      exact congrArg (Functor.map _) hFound
    · rw [hIff]
      apply exists_congr
      intro v
      apply and_congr_right
      intro hv
      exact (exists_equal_iff_of_eval (hType v hv) hEval).symm

def reading : Term := .column ⟨"reading", .float32⟩

/-- The positive zero repeats the negative one, and is still found. -/
theorem set_iff_anyOf_droppedZero :
    ∃ p q, make .isIn reading (.set Literals.zerosAndNaNs) = .ok p ∧
      make .notIn reading (.set Literals.zerosAndNaNs) = .ok q ∧
        p.test (some (.float32 ⟨false, 0, by decide⟩)) = .ok true ∧
          q.test (some (.float32 ⟨false, 0, by decide⟩)) = .ok false := by
  have hMade : ∀ v ∈ Literals.zerosAndNaNs, v.wellMade = true := by
    simp [Literals.zerosAndNaNs, Value.wellMade]
  obtain ⟨hMake, hTest⟩ := @set_iff_anyOf reading _ hMade
  have hLiterals : ∀ v ∈ Literals.zerosAndNaNs, ∃ e, make .equal reading (.literal v) = .ok e := by
    simp only [Literals.zerosAndNaNs, List.forall_mem_cons]
    exact ⟨⟨_, rfl⟩, ⟨_, rfl⟩, ⟨_, rfl⟩, ⟨_, rfl⟩, ⟨_, rfl⟩, List.forall_mem_nil _⟩
  obtain ⟨p, hp⟩ := (hMake .isIn (.inl rfl)).mpr hLiterals
  obtain ⟨q, hq⟩ := (hMake .notIn (.inr rfl)).mpr hLiterals
  have hRow : reading.origin.type.Holds (some (.float32 ⟨false, 0, by decide⟩)) := by
    rintro v ⟨⟩
    exact ⟨rfl, rfl⟩
  obtain ⟨found, hFound, hOther, hIff⟩ := hTest p q _ hp hq hRow (by simp [reading])
  have hZero : found = true := by
    rw [hIff]
    refine ⟨.float32 ⟨false, 0, by decide⟩, ?_, ⟨.equal, reading, .literal _⟩, rfl, rfl⟩
    simp [Literals.zerosAndNaNs]
  rw [hZero] at hFound hOther
  exact ⟨p, q, hp, hq, hFound, hOther⟩

end TermPredicate

end Bucketing
