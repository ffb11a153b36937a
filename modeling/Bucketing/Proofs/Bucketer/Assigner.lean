import Bucketing.Bucketer.Assigner
import Bucketing.Proofs.Predicate.Evaluation
import Bucketing.Proofs.Value.Hash

/-! # Equal values are in one bucket

An assigner hashes the values of its type as they are hashed anyhow, and refuses all others. So two
values that have a bucket and compare equal have the same.
-/
namespace Bucketing

theorem Source.kind_of_ofType?_eq_some {t : ColumnType} {source : Source}
    (h : ofType? t = some source) : source.kind = t.kind := by
  cases t <;> cases h <;> rfl

namespace Bucketer

variable {b : Bucketer} {t : ColumnType} {a : Assigner}

theorem make_eq_ok_iff {count : Int32} : make count = .ok b ↔ b.count = count := by
  rw [make]
  split
  · next h =>
    rw [Except.ok.injEq]
    constructor
    · rintro rfl
      rfl
    · rintro rfl
      rfl
  · next h =>
    refine ⟨nofun, ?_⟩
    rintro rfl
    exact absurd b.count_pos h

theorem bind_eq_error_iff {fault : Fault} :
    b.bind t = .error fault ↔ canBucket t = false ∧ fault = .typeNotBucketed t := by
  rw [canBucket]
  unfold bind
  split
  · next source hSource => simp [hSource]
  · next hSource => simp [hSource, eq_comm]

theorem exists_bind {t : ColumnType} (b : Bucketer) (h : canBucket t = true) : ∃ a, b.bind t = .ok a := by
  cases hBind : b.bind t with
  | ok a => exact ⟨a, rfl⟩
  | error fault =>
    rw [(bind_eq_error_iff.mp hBind).1] at h
    cases h

theorem canBucket_of_bind (h : b.bind t = .ok a) : canBucket t = true := by
  unfold bind at h
  split at h
  · next source hSource =>
    rw [canBucket, hSource]
    rfl
  · cases h

theorem type_eq_of_bind (h : b.bind t = .ok a) : a.type = t := by
  unfold bind at h
  split at h <;> cases h
  rfl

theorem bucketer_eq_of_bind (h : b.bind t = .ok a) : a.bucketer = b := by
  unfold bind at h
  split at h <;> cases h
  rfl

theorem bucketOf_of_bind (h : b.bind t = .ok a) (row : Option Value) :
    b.bucketOf t row = a.assignRow row := by
  rw [bucketOf, h]
  rfl

end Bucketer

namespace Assigner

variable (a : Assigner)

theorem fits_of_hash_eq_ok {v : Value} {n : Int32} (h : a.hash v = .ok n) : v.fits a.type = true := by
  unfold hash at h
  split at h
  · assumption
  · cases h

theorem hash_eq_hash {v : Value} (hFits : v.fits a.type = true) (hNull : v.isNull = false) :
    a.hash v = v.hash := by
  have hKind : v.kind? = some a.source.kind := by
    rw [Source.kind_of_ofType?_eq_some a.source_eq, Value.kind?_of_fits hNull hFits]
  unfold hash
  rw [if_pos hFits]
  generalize a.source = source at hKind
  cases v <;> cases source <;> first | rfl | cases hKind

theorem assign_eq_ok_some {v : Value} {k : Int32} (h : a.assign v = .ok (some k)) :
    v.isNull = false ∧ v.fits a.type = true ∧ a.bucketer.ofHash <$> v.hash = .ok k := by
  rw [assign] at h
  split at h
  · cases h
  · next hNull =>
    rw [Bool.not_eq_true] at hNull
    obtain ⟨n, hn, hk⟩ := Outcome.map_eq_ok_iff.mp h
    have hFits := a.fits_of_hash_eq_ok hn
    rw [← a.hash_eq_hash hFits hNull, hn]
    exact ⟨hNull, hFits, congrArg Except.ok (Option.some.inj hk)⟩

theorem assignRow_eq_ok {row : Option Value} {bucket : Option Int32}
    (h : a.assignRow row = .ok bucket) :
    (Operation.present row = none ∧ bucket = none) ∨
      ∃ v k, row = some v ∧ Operation.present row = some v ∧ bucket = some k ∧
        a.assign v = .ok (some k) := by
  cases row with
  | none =>
    cases h
    exact .inl ⟨rfl, rfl⟩
  | some v =>
    cases hNull : v.isNull with
    | true =>
      obtain rfl := Value.eq_null_of_isNull hNull
      cases h
      exact .inl ⟨rfl, rfl⟩
    | false =>
      have hAssign : a.assign v = .ok bucket := h
      have hSplit := hAssign
      rw [assign, hNull, if_neg Bool.false_ne_true, Outcome.map_eq_ok_iff] at hSplit
      obtain ⟨n, -, rfl⟩ := hSplit
      exact .inr ⟨v, _, rfl, Operation.present_some hNull, rfl, hAssign⟩

theorem isSome_present {row : Option Value} {bucket : Option Int32}
    (h : a.assignRow row = .ok bucket) : (Operation.present row).isSome = bucket.isSome := by
  rcases a.assignRow_eq_ok h with ⟨hNone, rfl⟩ | ⟨v, k, -, hPresent, rfl, -⟩
  · rw [hNone]
    rfl
  · rw [hPresent]
    rfl

/-- A row and a literal that both have a bucket are comparable. -/
theorem exists_compareWith {row : Option Value} {bucket : Option Int32} {w : Value} {m : Int32}
    (hRow : ∀ v, row = some v → v.wellMade = true) (hwMade : w.wellMade = true)
    (hBucket : a.assignRow row = .ok bucket) (hw : a.assign w = .ok (some m)) :
    ∃ o, Operation.compareWith (Operation.present row) w = .ok o := by
  rcases a.assignRow_eq_ok hBucket with ⟨hNone, -⟩ | ⟨v, k, hv, hPresent, -, hk⟩
  · rw [hNone]
    exact ⟨none, rfl⟩
  · obtain ⟨hvNull, hvFits, -⟩ := a.assign_eq_ok_some hk
    obtain ⟨hwNull, hwFits, -⟩ := a.assign_eq_ok_some hw
    rw [hPresent]
    exact Value.exists_tryCompare (hRow v hv) hwMade hvFits hwFits hvNull hwNull

/-- A row that equals a literal is in the bucket of the literal. -/
theorem bucket_eq_of_compareWith_eq {row : Option Value} {bucket : Option Int32} {w : Value}
    {m : Int32} (hRow : ∀ v, row = some v → v.wellMade = true) (hwMade : w.wellMade = true)
    (hBucket : a.assignRow row = .ok bucket) (hw : a.assign w = .ok (some m))
    (h : Operation.compareWith (Operation.present row) w = .ok (some .eq)) : bucket = some m := by
  rcases a.assignRow_eq_ok hBucket with ⟨hNone, -⟩ | ⟨v, k, hv, hPresent, rfl, hk⟩
  · rw [hNone] at h
    cases h
  · rw [hPresent] at h
    obtain ⟨-, hvFits, hkHash⟩ := a.assign_eq_ok_some hk
    obtain ⟨-, hwFits, hmHash⟩ := a.assign_eq_ok_some hw
    have hHash : v.hash = w.hash := by
      apply Value.hash_eq_of_tryCompare_eq (hRow v hv) hwMade h
      rintro d e rfl rfl
      exact Value.scale_eq_of_fits hvFits hwFits
    rw [hHash, hmHash] at hkHash
    rw [Except.ok.inj hkHash]

end Assigner

end Bucketing
