import Bucketing.Proofs.Bucketer.Domain
import Bucketing.Proofs.Projection.Typing

/-! # When a projection fails

A predicate on buckets is carried over without fail. A predicate on a column fails where the column
cannot be bucketed, and where a literal has to be hashed whose type has a nested field: such records
can be bucketed by their type, but none of them has a hash.
-/
namespace Bucketing

/-- Whether a projection is made from the buckets of the literals. -/
def Direction.bucketsLiterals : Direction → Operation → Bool
  | .inclusive, .equal | .inclusive, .isIn | .strict, .notEqual | .strict, .notIn => true
  | _, _ => false

namespace Assigner

variable (a : Assigner)

theorem assignLiteral_of_fits {v : Value} (hFits : v.fits a.type = true) (hNull : v.isNull = false) :
    a.assignLiteral v = a.bucketer.ofHash <$> v.hash := by
  rw [assignLiteral, a.assign_of_fits hFits hNull]
  cases v.hash <;> rfl

theorem assignLiteral_eq_error_iff {v : Value} (fault : Fault) (hNull : v.isNull = false)
    (hFits : v.fits a.type = true) :
    a.assignLiteral v = .error fault ↔ a.type.hashFault? = some fault := by
  rw [a.assignLiteral_of_fits hFits hNull, Outcome.map_eq_error_iff]
  exact Value.hash_eq_error_iff fault a.source_eq hNull hFits

theorem assignLiterals_eq_error_iff {vs : List Value} (fault : Fault)
    (h : ∀ v ∈ vs, v.isNull = false ∧ v.fits a.type = true) :
    a.assignLiterals vs = .error fault ↔ vs ≠ [] ∧ a.type.hashFault? = some fault := by
  induction vs with
  | nil => simp [assignLiterals]
  | cons v vs ih =>
    obtain ⟨⟨hNull, hFits⟩, hTail⟩ := List.forall_mem_cons.mp h
    rw [assignLiterals, Outcome.bind_eq_error_iff, a.assignLiteral_eq_error_iff fault hNull hFits]
    -- a literal further on fails for its type, which the first one shares
    constructor
    · rintro (hHead | ⟨k, -, hRest⟩)
      · exact ⟨List.cons_ne_nil v vs, hHead⟩
      · have hVs := (Outcome.bind_eq_error_iff_of_ok fun ks => ⟨k :: ks, rfl⟩).mp hRest
        exact ⟨List.cons_ne_nil v vs, ((ih hTail).mp hVs).2⟩
    · rintro ⟨-, hFault⟩
      exact .inl hFault

end Assigner

namespace Bucketer

variable {b : Bucketer} {direction : Direction} {name : String} {op : Operation} {term : Term}
  {operand : Operand} {type : ColumnType} {a : Assigner} {fault : Fault}

theorem exists_projectColumn_of_not_bucketsLiterals (hBind : b.bind type = .ok a)
    (hShaped : NamedPredicate.wellShaped op operand = true)
    (hDirection : direction.bucketsLiterals op = false) :
    ∃ q, b.projectColumn direction name type ⟨op, term, operand⟩ = .ok q := by
  match direction, op, operand, hShaped, hDirection with
  | _, .isNull, .none, _, _ | _, .notNull, .none, _, _ | _, .isNaN, .none, _, _
  | _, .notNaN, .none, _, _ | _, .less, .literal v, _, _ | _, .atMost, .literal v, _, _
  | _, .greater, .literal v, _, _ | _, .atLeast, .literal v, _, _ | _, .startsWith, .literal v, _, _
  | _, .notStartsWith, .literal v, _, _ | .strict, .equal, .literal v, _, _
  | .inclusive, .notEqual, .literal v, _, _ | .strict, .isIn, .set vs, _, _
  | .inclusive, .notIn, .set vs, _, _ =>
    rw [projectColumn, hBind]
    exact ⟨_, rfl⟩

theorem projectColumn_literal {v : Value} (hBind : b.bind type = .ok a)
    (hShaped : NamedPredicate.wellShaped op (.literal v) = true)
    (hDirection : direction.bucketsLiterals op = true) :
    b.projectColumn direction name type ⟨op, term, .literal v⟩ =
      a.assignLiteral v >>= fun k => some <$> NamedPredicate.make op name (.literal (.int32 k)) := by
  match direction, op, hShaped, hDirection with
  | .inclusive, .equal, _, _ | .strict, .notEqual, _, _ =>
    rw [projectColumn, hBind]
    rfl

theorem projectColumn_set {vs : List Value} (hBind : b.bind type = .ok a)
    (hShaped : NamedPredicate.wellShaped op (.set vs) = true)
    (hDirection : direction.bucketsLiterals op = true) :
    b.projectColumn direction name type ⟨op, term, .set vs⟩ =
      a.assignLiterals vs >>= fun ks =>
        some <$> NamedPredicate.makeNormal op name (.set ((ascending ks).map .int32)) := by
  match direction, op, hShaped, hDirection with
  | .inclusive, .isIn, _, _ | .strict, .notIn, _, _ =>
    rw [projectColumn, hBind]
    rfl

theorem projectColumn_eq_error_iff_of_bucketsLiterals (hBind : b.bind type = .ok a)
    (hSuits : operand.Suits op type) (hDirection : direction.bucketsLiterals op = true) :
    b.projectColumn direction name type ⟨op, term, operand⟩ = .error fault ↔
      operand.literals ≠ [] ∧ type.hashFault? = some fault := by
  obtain rfl := type_eq_of_bind hBind
  have hShaped := hSuits.shaped
  have hLiterals : ∀ v ∈ operand.literals, v.isNull = false ∧ v.fits a.type = true := by
    intro v hv
    exact ⟨NamedPredicate.isNull_of_wellShaped hShaped hv, hSuits.fits v hv⟩
  cases operand with
  | none => exact nomatch direction, op, hShaped, hDirection
  | literal v =>
    obtain ⟨hNull, hFits⟩ := hLiterals v List.mem_cons_self
    -- once the literal has its bucket nothing can fail
    have hMake (k : Int32) :
        ∃ q, some <$> NamedPredicate.make op name (.literal (.int32 k)) = .ok q := by
      rw [NamedPredicate.wellShaped, Bool.and_eq_true] at hShaped
      rw [NamedPredicate.make_of_wellShaped]
      · exact ⟨_, rfl⟩
      · rw [NamedPredicate.wellShaped, hShaped.1]
        rfl
    rw [projectColumn_literal hBind hShaped hDirection, Outcome.bind_eq_error_iff_of_ok hMake,
      a.assignLiteral_eq_error_iff fault hNull hFits]
    exact (and_iff_right (List.cons_ne_nil v [])).symm
  | set vs =>
    have hMake (ks : List Int32) : ∃ q,
        some <$> NamedPredicate.makeNormal op name (.set ((ascending ks).map .int32)) = .ok q := by
      rw [NamedPredicate.wellShaped, Bool.and_eq_true] at hShaped
      rw [NamedPredicate.makeNormal,
        NamedPredicate.make_of_wellShaped (NamedPredicate.wellShaped_buckets hShaped.1 ks)]
      exact ⟨_, rfl⟩
    rw [projectColumn_set hBind hShaped hDirection, Outcome.bind_eq_error_iff_of_ok hMake]
    exact a.assignLiterals_eq_error_iff fault hLiterals

theorem projectColumn_eq_error_iff (hSuits : operand.Suits op type) :
    b.projectColumn direction name type ⟨op, term, operand⟩ = .error fault ↔
      (canBucket type = false ∧ fault = .typeNotBucketed type) ∨
        direction.bucketsLiterals op = true ∧ operand.literals ≠ [] ∧ type.hashFault? = some fault := by
  cases hBind : b.bind type with
  | error cause =>
    obtain ⟨hType, rfl⟩ := bind_eq_error_iff.mp hBind
    -- a type that cannot be bucketed is no record, so the reasons exclude each other
    have hFault : type.hashFault? = none := by
      cases type <;> first | rfl | cases hType
    have hFails : b.projectColumn direction name type ⟨op, term, operand⟩ =
        .error (.typeNotBucketed type) := by
      rw [projectColumn, hBind]
      rfl
    rw [hFails, hFault, Except.error.injEq]
    constructor
    · rintro rfl
      exact .inl ⟨hType, rfl⟩
    · rintro (⟨-, rfl⟩ | ⟨-, -, hNone⟩)
      · rfl
      · cases hNone
  | ok a =>
    have hType : ¬(canBucket type = false ∧ fault = .typeNotBucketed type) := by
      rw [← bind_eq_error_iff (b := b), hBind]
      simp
    rw [or_iff_right hType]
    cases hDirection : direction.bucketsLiterals op with
    | false =>
      obtain ⟨q, hq⟩ := exists_projectColumn_of_not_bucketsLiterals hBind hSuits.shaped hDirection
      rw [hq]
      simp
    | true =>
      rw [projectColumn_eq_error_iff_of_bucketsLiterals hBind hSuits hDirection]
      exact (and_iff_right rfl).symm

/-- A well-shaped predicate on buckets is as well-shaped on a partition column. -/
theorem carry_bucketed {other : Bucketer} {c : Column}
    (hShaped : NamedPredicate.wellShaped op operand = true) :
    b.carry name ⟨op, .bucketed other c, operand⟩ =
      .ok (if other = b then some ⟨op, name, operand⟩ else none) := by
  rw [carry]
  dsimp only
  split
  · rw [NamedPredicate.make_of_wellShaped hShaped]
    rfl
  · rfl

theorem exists_carry {other : Bucketer} {c : Column}
    (hShaped : NamedPredicate.wellShaped op operand = true) :
    ∃ q, b.carry name ⟨op, .bucketed other c, operand⟩ = .ok q :=
  ⟨_, carry_bucketed hShaped⟩

/-- A predicate that was made fails to project exactly where its column cannot be bucketed, or where
its literals are to be bucketed, there are some, and their type has a nested field. -/
theorem project_eq_error_iff {p : TermPredicate} (hMake : TermPredicate.make op term operand = .ok p) :
    b.project direction name p = .error fault ↔
      ∃ c, term = .column c ∧
        ((canBucket c.type = false ∧ fault = .typeNotBucketed c.type) ∨
          direction.bucketsLiterals op = true ∧ p.operand.literals ≠ [] ∧
            c.type.hashFault? = some fault) := by
  obtain ⟨operand, rfl, hSuits⟩ := TermPredicate.suits_of_make hMake
  cases term with
  | bucketed other c =>
    have hCarry : ∃ q, b.carry name ⟨op, .bucketed other c, operand⟩ = .ok q :=
      exists_carry hSuits.shaped
    obtain ⟨q, hq⟩ := hCarry
    rw [project]
    dsimp only
    rw [hq]
    exact ⟨nofun, fun ⟨c, hc, _⟩ => nomatch hc⟩
  | column c =>
    refine (projectColumn_eq_error_iff hSuits).trans ?_
    constructor
    · intro h
      exact ⟨c, rfl, h⟩
    · rintro ⟨c, ⟨⟩, h⟩
      exact h

/-- A key with a record in it. -/
def nestedKey : Column := ⟨"key", Record.type (TermPredicate.nested .null)⟩

theorem project_eq_error_iff_nested :
    (⟨8, by decide⟩ : Bucketer).project .strict "bucket"
        ⟨.notIn, .column nestedKey, .set [.record (TermPredicate.nested .null)]⟩ =
      .error (.nestedFieldNotHashed "inner" (.record [⟨3, "x", .float32, true⟩])) ∧
    ∀ fault, (⟨8, by decide⟩ : Bucketer).project .strict "bucket"
      ⟨.notIn, .column nestedKey, .set []⟩ ≠ .error fault := by
  have hOne : TermPredicate.make .notIn (.column nestedKey)
      (.set [.record (TermPredicate.nested .null)]) =
        .ok ⟨.notIn, .column nestedKey, .set [.record (TermPredicate.nested .null)]⟩ := rfl
  have hEmpty : TermPredicate.make .notIn (.column nestedKey) (.set []) =
      .ok ⟨.notIn, .column nestedKey, .set []⟩ := rfl
  constructor
  · exact (project_eq_error_iff hOne).mpr ⟨nestedKey, rfl, .inr ⟨rfl, nofun, rfl⟩⟩
  · intro fault h
    obtain ⟨c, ⟨⟩, ⟨hType, -⟩ | ⟨-, hNonempty, -⟩⟩ := (project_eq_error_iff hEmpty).mp h
    · cases hType
    · exact hNonempty rfl

/-- A column of records with a record in them can be bucketed by its type, and yet an equality on it
fails to project. -/
theorem project_equal_nested_eq_error :
    canBucket nestedKey.type = true ∧
      TermPredicate.make .equal (.column nestedKey) (.literal (.record (TermPredicate.nested .null))) =
        .ok ⟨.equal, .column nestedKey, .literal (.record (TermPredicate.nested .null))⟩ ∧
      (⟨8, by decide⟩ : Bucketer).project .inclusive "bucket"
          ⟨.equal, .column nestedKey, .literal (.record (TermPredicate.nested .null))⟩ =
        .error (.nestedFieldNotHashed "inner" (.record [⟨3, "x", .float32, true⟩])) :=
  ⟨rfl, rfl, rfl⟩

end Bucketer

end Bucketing
