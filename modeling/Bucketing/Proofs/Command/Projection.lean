import Bucketing.Proofs.ColumnType.Naming
import Bucketing.Proofs.Command.Output
import Bucketing.Proofs.Projection.Failure
import Bucketing.Proofs.Value.Reading

/-! # When the project command answers

A projection that is asked for is refused for its bucket count, for its type, for a value that cannot
be read, for the number of its values, or for a prefix that is not asked of text. Nothing else can go
wrong: what is read fits its type and is no null, and no type that has a name is a record, so that every
literal has a bucket.
-/
namespace Bucketing

/-- A unary operation takes no values, an operation on sets any number of them, and every other one
exactly one. -/
def Operation.Takes (op : Operation) (n : Nat) : Prop :=
  (op.isUnary = true → n = 0) ∧ (op.isUnary = false → op.takesSet = false → n = 1)

theorem Operation.takesLiteral_iff (op : Operation) :
    op.takesLiteral = true ↔ op.isUnary = false ∧ op.takesSet = false := by
  cases op <;> decide

theorem Operation.isUnary_of_takesSet {op : Operation} (h : op.takesSet = true) :
    op.isUnary = false := by
  cases op <;> first | rfl | cases h

namespace Command

/-- A projection that makes sense. -/
structure Projectable (count : Int32) (type : ColumnType) (op : Operation) (values : List String) :
    Prop where
  positive : 0 < count
  bucketed : type ≠ .boolean
  readable : ∀ text ∈ values, ∃ v, Value.read type text = .ok v
  taken : op.Takes values.length
  text : op = .startsWith ∨ op = .notStartsWith → type = .utf8

/-- The operand that an operation has where these are the literals. -/
inductive OperandOf (op : Operation) : List Value → Operand → Prop where
  | none (unary : op.isUnary = true) : OperandOf op [] .none
  | literal (takesLiteral : op.takesLiteral = true) (v : Value) : OperandOf op [v] (.literal v)
  | set (takesSet : op.takesSet = true) (vs : List Value) : OperandOf op vs (.set vs)

variable {op : Operation} {t : ColumnType} {vs : List Value} {operand : Operand} {column : Column}
  {values : List String} {p : TermPredicate}

theorem exists_operandOf_iff : (∃ operand, OperandOf op vs operand) ↔ op.Takes vs.length := by
  constructor
  · rintro ⟨_, unary | takesLiteral | takesSet⟩
    · simp [Operation.Takes, unary]
    · simp [Operation.Takes, (op.takesLiteral_iff.mp takesLiteral).1]
    · simp [Operation.Takes, takesSet, Operation.isUnary_of_takesSet takesSet]
  · rintro ⟨hNone, hOne⟩
    cases hUnary : op.isUnary with
    | true =>
      obtain rfl := List.length_eq_zero_iff.mp (hNone hUnary)
      exact ⟨_, .none hUnary⟩
    | false =>
      cases hSet : op.takesSet with
      | true => exact ⟨_, .set hSet vs⟩
      | false =>
        obtain ⟨v, rfl⟩ := List.length_eq_one_iff.mp (hOne hUnary hSet)
        exact ⟨_, .literal (op.takesLiteral_iff.mpr ⟨hUnary, hSet⟩) v⟩

/-- Literals of the type suit every operation that takes so many, but for a prefix. -/
theorem OperandOf.suits_iff (h : OperandOf op vs operand)
    (hLiterals : ∀ v ∈ vs, v.isNull = false ∧ v.fits t = true) :
    operand.normal.Suits op t ↔ (op = .startsWith ∨ op = .notStartsWith → t = .utf8) := by
  refine ⟨Operand.Suits.text, fun hText => ?_⟩
  cases h with
  | none unary => exact (Operand.suits_none_iff op t).mpr unary
  | literal takesLiteral v =>
    exact (Operand.suits_literal_iff v op t).mpr ⟨takesLiteral, hLiterals v List.mem_cons_self, hText⟩
  | set takesSet =>
    refine (Operand.suits_set_iff _ op t).mpr ⟨takesSet, ?_⟩
    exact fun v hv => hLiterals v (Literals.mem_of_mem_normalize vs v hv)

theorem readLiterals_eq_mapM (values : List String) :
    readLiterals t values = values.mapM (Value.read t) := by
  induction values with
  | nil => rfl
  | cons text values ih => rw [readLiterals, List.mapM_cons, ih]

theorem exists_readLiterals_iff :
    (∃ vs, readLiterals t values = .ok vs) ↔ ∀ text ∈ values, ∃ v, Value.read t text = .ok v := by
  rw [readLiterals_eq_mapM, Outcome.exists_mapM_iff]

theorem length_of_readLiterals (h : readLiterals t values = .ok vs) : values.length = vs.length := by
  rw [readLiterals_eq_mapM, Outcome.mapM_eq_ok_iff] at h
  exact h.length_eq

theorem fits_of_readLiterals (h : readLiterals t values = .ok vs) :
    ∀ v ∈ vs, v.isNull = false ∧ v.fits t = true := by
  intro v hv
  rw [readLiterals_eq_mapM] at h
  obtain ⟨text, -, hRead⟩ := Outcome.exists_of_mem_mapM h v hv
  exact (Value.fits_of_read hRead).symm

theorem predicate_eq_ok_iff :
    predicate op column values = .ok p ↔ ∃ vs operand, readLiterals column.type values = .ok vs ∧
      OperandOf op vs operand ∧ TermPredicate.make op (.column column) operand = .ok p := by
  simp only [predicate, Outcome.bind_eq_ok_iff, Outcome.mapError_eq_ok_iff]
  apply exists_congr
  intro vs
  constructor
  · rintro ⟨hRead, h⟩
    split at h
    · next hUnary =>
      split at h
      · next hEmpty =>
        obtain rfl := List.isEmpty_iff.mp hEmpty
        exact ⟨_, hRead, .none hUnary, h⟩
      · cases h
    · next hUnary =>
      split at h
      · next hSet => exact ⟨_, hRead, .set hSet vs, h⟩
      · next hSet =>
        split at h
        · next v =>
          rw [Bool.not_eq_true] at hUnary hSet
          exact ⟨_, hRead, .literal (op.takesLiteral_iff.mpr ⟨hUnary, hSet⟩) v, h⟩
        · cases h
  · rintro ⟨operand, hRead, hOperand, hMake⟩
    refine ⟨hRead, ?_⟩
    cases hOperand with
    | none unary =>
      rw [if_pos unary]
      exact hMake
    | literal takesLiteral v =>
      obtain ⟨hUnary, hSet⟩ := op.takesLiteral_iff.mp takesLiteral
      rw [hUnary, hSet]
      exact hMake
    | set takesSet =>
      rw [Operation.isUnary_of_takesSet takesSet, takesSet]
      exact hMake

theorem exists_predicate_iff :
    (∃ p, predicate op column values = .ok p) ↔
      (∀ text ∈ values, ∃ v, Value.read column.type text = .ok v) ∧ op.Takes values.length ∧
        (op = .startsWith ∨ op = .notStartsWith → column.type = .utf8) := by
  rw [← exists_readLiterals_iff]
  simp only [predicate_eq_ok_iff, TermPredicate.make_eq_ok_iff]
  constructor
  · rintro ⟨p, vs, operand, hRead, hOperand, -, hSuits⟩
    refine ⟨⟨vs, hRead⟩, ?_, hSuits.text⟩
    rw [length_of_readLiterals hRead]
    exact exists_operandOf_iff.mp ⟨operand, hOperand⟩
  · rintro ⟨⟨vs, hRead⟩, hTakes, hText⟩
    rw [length_of_readLiterals hRead] at hTakes
    obtain ⟨operand, hOperand⟩ := exists_operandOf_iff.mpr hTakes
    exact ⟨_, vs, operand, hRead, hOperand, rfl,
      (hOperand.suits_iff (fits_of_readLiterals hRead)).mpr hText⟩

/-- A predicate on a column of a type that is not nested is projected wherever the type can be
bucketed. -/
theorem exists_project_iff {b : Bucketer} {direction : Direction} {name : String}
    (hFlat : column.type.isNested = false) (hPredicate : predicate op column values = .ok p) :
    (∃ q, b.project direction name p = .ok q) ↔ column.type ≠ .boolean := by
  obtain ⟨-, operand, -, -, hMake⟩ := predicate_eq_ok_iff.mp hPredicate
  rw [← Bucketer.canBucket_iff_of_not_isNested hFlat]
  constructor
  · rintro ⟨q, hq⟩
    rw [← Bool.not_eq_false]
    intro hType
    have hFails : b.project direction name p = .error (.typeNotBucketed column.type) :=
      (Bucketer.project_eq_error_iff hMake).mpr ⟨column, rfl, .inl ⟨hType, rfl⟩⟩
    cases hq.symm.trans hFails
  · intro hType
    cases hProject : b.project direction name p with
    | ok q => exact ⟨q, rfl⟩
    | error fault =>
      obtain ⟨_, ⟨⟩, ⟨hNone, -⟩ | ⟨-, -, hFault⟩⟩ := (Bucketer.project_eq_error_iff hMake).mp hProject
      · cases hType.symm.trans hNone
      · -- only records have a nested field
        have hKind : column.type.kind ≠ .record := by
          intro hRecord
          rw [ColumnType.isNested, hRecord] at hFlat
          cases hFlat
        cases (ColumnType.hashFault?_eq_none hKind).symm.trans hFault

variable {count : Int32} {direction : Direction} {partitionName : Option String} {name : String}

theorem exists_run_project_iff :
    (∃ text, (project count direction partitionName t name op values).run = .ok text) ↔
      ∃ b p, Bucketer.make count = .ok b ∧ predicate op ⟨name, t⟩ values = .ok p ∧
        ∃ q, b.project direction (partitionNameOf partitionName name) p = .ok q := by
  simp only [run, answer, Outcome.map_eq_ok_iff, Outcome.bind_eq_ok_iff]
  constructor
  · rintro ⟨text, answered, ⟨b, hMake, p, hPredicate, q, hProject, -⟩, -⟩
    exact ⟨b, p, hMake, hPredicate, q, hProject⟩
  · rintro ⟨b, p, hMake, hPredicate, q, hProject⟩
    cases q with
    | none => exact ⟨_, _, ⟨b, hMake, p, hPredicate, none, hProject, rfl⟩, rfl⟩
    | some q => exact ⟨_, _, ⟨b, hMake, p, hPredicate, some q, hProject, rfl⟩, rfl⟩

theorem exists_run_project_iff_projectable (hFlat : t.isNested = false) :
    (∃ text, (project count direction partitionName t name op values).run = .ok text) ↔
      Projectable count t op values := by
  rw [exists_run_project_iff]
  constructor
  · rintro ⟨b, p, hMake, hPredicate, hProject⟩
    obtain ⟨hRead, hTakes, hText⟩ := exists_predicate_iff.mp ⟨p, hPredicate⟩
    have hCount := b.count_pos
    rw [Bucketer.make_eq_ok_iff.mp hMake] at hCount
    exact ⟨hCount, (exists_project_iff hFlat hPredicate).mp hProject, hRead, hTakes, hText⟩
  · rintro ⟨positive, bucketed, readable, taken, text⟩
    have hMake : Bucketer.make count = .ok ⟨count, positive⟩ := Bucketer.make_eq_ok_iff.mpr rfl
    have hPredicate : ∃ p, predicate op ⟨name, t⟩ values = .ok p :=
      exists_predicate_iff.mpr ⟨readable, taken, text⟩
    obtain ⟨p, hPredicate⟩ := hPredicate
    exact ⟨_, p, hMake, hPredicate, (exists_project_iff hFlat hPredicate).mpr bucketed⟩

/-- The projection of a predicate on a column whose type has a name is answered exactly where it makes
sense. Where there is a fault the output is as it was. -/
theorem execute_project {typeName : String} (hType : ColumnType.ofText typeName = .ok t)
    (count : Int32) (direction : Direction) (partitionName : Option String) (column : String)
    (op : Operation) (values : List String) (output : String) :
    ((∃ written, (project count direction partitionName t column op values).execute.run output =
        .ok () written) ↔ Projectable count t op values) ∧
      ∀ fault written, (project count direction partitionName t column op values).execute.run output =
        .error fault written → written = output := by
  constructor
  · rw [exists_run_execute_iff]
    exact exists_run_project_iff_projectable (ColumnType.isNested_of_ofText hType)
  · intro fault written h
    exact eq_of_run_execute_eq_error h

/-- A prefix may be asked of text, but not of a decimal that is written alike. -/
theorem execute_project_prefix :
    (∃ written, (project 16 .strict none .utf8 "code" .notStartsWith ["14.2"]).execute.run "1\n" =
        .ok () written) ∧
      ∃ fault, (project 16 .strict none (.decimal 9 2) "code" .notStartsWith ["14.2"]).execute.run "1\n" =
        .error fault "1\n" := by
  have hText : ColumnType.ofText " String" = .ok .utf8 := rfl
  have hDecimal : ColumnType.ofText "decimal(9, 2)" = .ok (.decimal 9 2) := rfl
  obtain ⟨hAnswered, -⟩ := execute_project hText 16 .strict none "code" .notStartsWith ["14.2"] "1\n"
  obtain ⟨hRefused, hKept⟩ :=
    execute_project hDecimal 16 .strict none "code" .notStartsWith ["14.2"] "1\n"
  constructor
  · refine hAnswered.mpr ⟨by decide, nofun, ?_, ⟨nofun, fun _ _ => rfl⟩, fun _ => rfl⟩
    exact List.forall_mem_singleton.mpr ⟨.utf8 "14.2", rfl⟩
  · cases hRun : (project 16 .strict none (.decimal 9 2) "code" .notStartsWith
        ["14.2"]).execute.run "1\n" with
    | ok _ written => cases (hRefused.mp ⟨written, hRun⟩).text (.inr rfl)
    | error fault written =>
      rw [hKept fault written hRun]
      exact ⟨fault, rfl⟩

end Command

end Bucketing
