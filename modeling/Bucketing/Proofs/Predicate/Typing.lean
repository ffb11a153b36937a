import Bucketing.Predicate
import Bucketing.Proofs.Predicate.Evaluation
import Bucketing.Proofs.Value.Comparison

/-! # Well-typed predicates

A predicate is made only where its operand has the shape that its operation takes, its literals are
values of its term, and a prefix is asked of text alone. Such a predicate has an answer for every
row of its column.
-/
namespace Bucketing

/-- A column of the type can have this in a row: no value, or one that fits. -/
def ColumnType.Holds (t : ColumnType) (row : Option Value) : Prop :=
  ∀ v, row = some v → v.wellMade = true ∧ v.fits t = true

/-- The operation can be asked with this operand of a column of the type. -/
structure Operand.Suits (operand : Operand) (op : Operation) (t : ColumnType) : Prop where
  shaped : NamedPredicate.wellShaped op operand = true
  fits : ∀ v ∈ operand.literals, v.fits t = true
  text : op = .startsWith ∨ op = .notStartsWith → t = .utf8

theorem NamedPredicate.isNull_of_wellShaped {op : Operation} {operand : Operand} {v : Value}
    (h : wellShaped op operand = true) (hv : v ∈ operand.literals) : v.isNull = false := by
  cases operand with
  | none => cases hv
  | literal w =>
    rw [wellShaped, Bool.and_eq_true, Bool.not_eq_true'] at h
    rw [List.mem_singleton.mp hv]
    exact h.2
  | set ws =>
    rw [wellShaped, Bool.and_eq_true, List.all_eq_true] at h
    rw [← Bool.not_eq_true']
    exact h.2 v hv

namespace Term

theorem checkLiteral_eq_ok_iff (term : Term) (v : Value) :
    term.checkLiteral v = .ok () ↔ v.isNull = false ∧ v.fits term.type = true := by
  rw [checkLiteral]
  cases v.isNull <;> cases v.fits term.type <;> simp

theorem checkLiterals_eq_ok_iff (term : Term) (vs : List Value) :
    term.checkLiterals vs = .ok () ↔ ∀ v ∈ vs, term.checkLiteral v = .ok () := by
  induction vs with
  | nil => simp [checkLiterals]
  | cons v vs ih =>
    rw [checkLiterals, Outcome.bind_unit_eq_ok_iff, List.forall_mem_cons, ih]

variable {term : Term} {row value : Option Value}

theorem eval_column (c : Column) (row : Option Value) :
    (column c).eval row = .ok (Operation.present row) := by
  rw [eval]
  cases Operation.present row <;> rfl

theorem exists_eval (h : ∀ b c, term = .bucketed b c → ∃ value, term.eval row = .ok value) :
    ∃ value, term.eval row = .ok value := by
  cases term with
  | column c => exact ⟨_, eval_column c row⟩
  | bucketed b c => exact h b c rfl

/-- The value of a term on a row of its column is one of the term's own type. -/
theorem holds_of_eval (hRow : term.origin.type.Holds row) (h : term.eval row = .ok value) :
    term.type.Holds value := by
  intro v hv
  subst hv
  cases term with
  | column c =>
    rw [eval_column, Except.ok.injEq] at h
    rcases Operation.present_eq_none_or row with hNone | ⟨u, hu, -, hPresent⟩
    · cases hNone.symm.trans h
    · cases hPresent.symm.trans h
      exact hRow v hu
  | bucketed b c =>
    rw [eval] at h
    split at h
    · cases h
    · obtain ⟨bucket, -, hBucket⟩ := Outcome.map_eq_ok_iff.mp h
      obtain ⟨k, -, rfl⟩ := Option.map_eq_some_iff.mp hBucket
      exact ⟨rfl, rfl⟩

end Term

namespace Operand

theorem suits_none_iff (op : Operation) (t : ColumnType) :
    Operand.none.Suits op t ↔ op.isUnary = true := by
  refine ⟨Suits.shaped, fun hOp => ⟨hOp, nofun, ?_⟩⟩
  rintro (rfl | rfl) <;> cases hOp

theorem suits_literal_iff (v : Value) (op : Operation) (t : ColumnType) :
    (Operand.literal v).Suits op t ↔ op.takesLiteral = true ∧ (v.isNull = false ∧ v.fits t = true) ∧
      (op = .startsWith ∨ op = .notStartsWith → t = .utf8) := by
  constructor
  · intro h
    have hShaped := h.shaped
    rw [NamedPredicate.wellShaped, Bool.and_eq_true, Bool.not_eq_true'] at hShaped
    exact ⟨hShaped.1, ⟨hShaped.2, h.fits v List.mem_cons_self⟩, h.text⟩
  · rintro ⟨hOp, ⟨hNull, hFits⟩, hText⟩
    refine ⟨?_, List.forall_mem_singleton.mpr hFits, hText⟩
    rw [NamedPredicate.wellShaped, hOp, hNull]
    rfl

theorem suits_set_iff (vs : List Value) (op : Operation) (t : ColumnType) :
    (Operand.set vs).Suits op t ↔
      op.takesSet = true ∧ ∀ v ∈ vs, v.isNull = false ∧ v.fits t = true := by
  constructor
  · intro h
    have hShaped := h.shaped
    rw [NamedPredicate.wellShaped, Bool.and_eq_true] at hShaped
    refine ⟨hShaped.1, fun v hv => ⟨?_, h.fits v hv⟩⟩
    exact NamedPredicate.isNull_of_wellShaped h.shaped hv
  · rintro ⟨hOp, hLiterals⟩
    refine ⟨?_, fun v hv => (hLiterals v hv).2, ?_⟩
    · rw [NamedPredicate.wellShaped, hOp, Bool.true_and, List.all_eq_true]
      intro v hv
      rw [(hLiterals v hv).1]
      rfl
    · rintro (rfl | rfl) <;> cases hOp

/-- The literals of a set in their normal form. -/
def normal : Operand → Operand
  | .set vs => .set (Literals.normalize vs)
  | operand => operand

end Operand

namespace TermPredicate

variable {op : Operation} {term : Term} {operand : Operand} {p : TermPredicate}

theorem make_eq_ok_iff :
    make op term operand = .ok p ↔
      p = ⟨op, term, operand.normal⟩ ∧ operand.normal.Suits op term.type := by
  cases operand with
  | none =>
    rw [make, Operand.normal, Operand.suits_none_iff]
    · split
      · next hOp => simp [hOp, eq_comm]
      · next hOp => simp [hOp]
    · nofun
  | literal v =>
    rw [make, Operand.normal, Operand.suits_literal_iff, ← Term.checkLiteral_eq_ok_iff]
    · split
      · next hOp =>
        have hText : ((op == .startsWith || op == .notStartsWith) && term.type != .utf8) = true ↔
            ¬(op = .startsWith ∨ op = .notStartsWith → term.type = .utf8) := by
          rw [Bool.and_eq_true, Bool.or_eq_true, beq_iff_eq, beq_iff_eq, bne_iff_ne, Classical.not_imp]
        rw [Outcome.bind_unit_eq_ok_iff]
        dsimp only
        split
        · next hMistyped =>
          constructor
          · rintro ⟨-, h⟩
            cases h
          · rintro ⟨-, -, -, hTyped⟩
            exact absurd hTyped (hText.mp hMistyped)
        · next hTyped =>
          rw [hText, Classical.not_not] at hTyped
          constructor
          · rintro ⟨hCheck, h⟩
            cases h
            exact ⟨rfl, hOp, hCheck, hTyped⟩
          · rintro ⟨rfl, -, hCheck, -⟩
            exact ⟨hCheck, rfl⟩
      · next hOp => simp [hOp]
    · nofun
  | set vs =>
    simp only [make, Operand.normal, Operand.suits_set_iff, ← Term.checkLiteral_eq_ok_iff,
      ← Term.checkLiterals_eq_ok_iff]
    split
    · next hOp =>
      rw [Outcome.bind_unit_eq_ok_iff]
      simp [hOp, eq_comm, and_comm, pure, Except.pure]
    · next hOp => simp [hOp]

/-- The construction keeps operation and term, and lets only suitable literals pass. -/
theorem suits_of_make (h : make op term operand = .ok p) :
    ∃ operand', p = ⟨op, term, operand'⟩ ∧ operand'.Suits op term.type :=
  ⟨operand.normal, make_eq_ok_iff.mp h⟩

theorem test_of_eval {row value : Option Value} (h : term.eval row = .ok value) :
    test ⟨op, term, operand⟩ row = op.test value operand := by
  rw [test, h]
  rfl

end TermPredicate

namespace Operation

variable {t : ColumnType} {row : Option Value}

theorem exists_compareWith_of_holds {w : Value} (hRow : t.Holds row) (hMade : w.wellMade = true)
    (hFits : w.fits t = true) (hNull : w.isNull = false) : ∃ o, compareWith (present row) w = .ok o := by
  rcases present_eq_none_or row with hNone | ⟨v, hv, hvNull, hPresent⟩
  · rw [hNone]
    exact ⟨none, rfl⟩
  · obtain ⟨hvMade, hvFits⟩ := hRow v hv
    rw [hPresent]
    exact Value.exists_tryCompare hvMade hMade hvFits hFits hvNull hNull

theorem exists_startsWithLead_of_holds {w : Value} (hRow : ColumnType.utf8.Holds row)
    (hFits : w.fits .utf8 = true) (hNull : w.isNull = false) :
    ∃ found, startsWithLead (present row) w = .ok found := by
  rcases present_eq_none_or row with hNone | ⟨v, hv, hvNull, hPresent⟩
  · rw [hNone]
    exact ⟨false, rfl⟩
  · rw [hPresent]
    match v, w, Value.kind?_of_fits hvNull (hRow v hv).2, Value.kind?_of_fits hNull hFits with
    | .utf8 s, .utf8 lead, _, _ => exact ⟨_, rfl⟩

/-- A suitable operand has an answer for every row that the column can have. -/
theorem exists_test_of_suits {op : Operation} {operand : Operand} (hSuits : operand.Suits op t)
    (hLiterals : ∀ v ∈ operand.literals, v.wellMade = true) (hRow : t.Holds row) :
    ∃ matched, op.test row operand = .ok matched := by
  have hComparable : ∀ w ∈ operand.literals, ∃ o, compareWith (present row) w = .ok o := by
    intro w hw
    exact exists_compareWith_of_holds hRow (hLiterals w hw) (hSuits.fits w hw)
      (NamedPredicate.isNull_of_wellShaped hSuits.shaped hw)
  -- the shape of the operand leaves only the operations that take one like it
  cases operand with
  | none =>
    match op, hSuits.shaped with
    | .isNull, _ | .notNull, _ | .isNaN, _ | .notNaN, _ => exact ⟨_, rfl⟩
  | literal w =>
    obtain ⟨o, ho⟩ := hComparable w List.mem_cons_self
    have hStarts (h : op = .startsWith ∨ op = .notStartsWith) :
        ∃ found, startsWithLead (present row) w = .ok found := by
      obtain rfl := hSuits.text h
      exact exists_startsWithLead_of_holds hRow (hSuits.fits w List.mem_cons_self)
        (NamedPredicate.isNull_of_wellShaped hSuits.shaped List.mem_cons_self)
    match op, hSuits.shaped with
    | .less, _ | .atMost, _ | .greater, _ | .atLeast, _ | .equal, _ | .notEqual, _ =>
      rw [test, testPresent, ho]
      exact ⟨_, rfl⟩
    | .startsWith, _ => exact hStarts (.inl rfl)
    | .notStartsWith, _ =>
      obtain ⟨found, hFound⟩ := hStarts (.inr rfl)
      rw [test, testPresent, hFound]
      exact ⟨_, rfl⟩
  | set ws =>
    obtain ⟨found, hFound, -⟩ := equalsAny_of_comparable hComparable
    change equalsAny (present row) ws = .ok found at hFound
    match op, hSuits.shaped with
    | .isIn, _ => exact ⟨found, hFound⟩
    | .notIn, _ =>
      rw [test, testPresent, hFound]
      exact ⟨_, rfl⟩

end Operation

end Bucketing
