import Bucketing.Proofs.Bucketer.Assigner

/-! # What an assigner assigns

An assigner hashes by its source, and a value by its kind. On values that fit the bound type the two
agree, so that a value goes to the bucket of its canonical hash. Only a null gets past the type
without being of the source, and only a record with a nested field fits and has no hash.
-/
namespace Bucketing

theorem ColumnType.exists_field_of_hashFault? {t : ColumnType} {fault : Fault}
    (h : t.hashFault? = some fault) : ∃ f : Field, fault = .nestedFieldNotHashed f.name f.type := by
  cases t with
  | record fields =>
    obtain ⟨f, -, rfl⟩ := Option.map_eq_some_iff.mp h
    exact ⟨f, rfl⟩
  | _ => cases h

theorem Value.hash_eq_error_iff {v : Value} {t : ColumnType} {source : Source} (fault : Fault)
    (hSource : Source.ofType? t = some source) (hNull : v.isNull = false) (hFits : v.fits t = true) :
    v.hash = .error fault ↔ t.hashFault? = some fault := by
  have hKind := kind?_of_fits hNull hFits
  cases v with
  | null => cases hNull
  | boolean b =>
    have hSourceKind := Source.kind_of_ofType?_eq_some hSource
    rw [← Option.some.inj hKind] at hSourceKind
    cases source <;> cases hSourceKind
  | record r =>
    rw [eq_record_of_fits hFits]
    exact Record.hash_eq_error_iff r fault
  | _ =>
    rw [ColumnType.hashFault?_eq_none (by rw [← Option.some.inj hKind]; nofun)]
    exact ⟨nofun, nofun⟩

theorem Value.exists_fault_of_hash_iff {v : Value} {t : ColumnType} {source : Source}
    (hSource : Source.ofType? t = some source) (hNull : v.isNull = false) (hFits : v.fits t = true) :
    (∃ fault, v.hash = .error fault) ↔ ∃ r, v = .record r ∧ ∃ c ∈ r, c.1.type.isNested = true := by
  simp only [hash_eq_error_iff _ hSource hNull hFits]
  cases v with
  | null => cases hNull
  | record r =>
    simp only [eq_record_of_fits hFits, ← Record.hash_eq_error_iff, Record.exists_fault_of_hash_iff]
    simp
  | _ =>
    have hKind := kind?_of_fits hNull hFits
    rw [ColumnType.hashFault?_eq_none (by rw [← Option.some.inj hKind]; nofun)]
    simp

namespace Bucketer

theorem toInt_and_maxValue_nonneg (h : Int32) : 0 ≤ (h &&& Int32.maxValue).toInt := by
  have hSign : (h &&& Int32.maxValue).toBitVec.msb = false := by
    rw [Int32.toBitVec_and, BitVec.msb_and, show Int32.maxValue.toBitVec.msb = false from rfl,
      Bool.and_false]
  rw [← Int32.toInt_toBitVec]
  exact BitVec.toInt_nonneg_of_msb_false hSign

theorem toInt_ofHash (b : Bucketer) (h : Int32) :
    (b.ofHash h).toInt = (h &&& Int32.maxValue).toInt % b.count.toInt := by
  rw [ofHash, Int32.toInt_mod, Int.tmod_eq_emod_of_nonneg (toInt_and_maxValue_nonneg h)]

theorem ofHash_nonneg (b : Bucketer) (h : Int32) : 0 ≤ b.ofHash h := by
  have hCount := Int32.lt_iff_toInt_lt.mp b.count_pos
  rw [Int32.le_iff_toInt_le, toInt_ofHash]
  exact Int.emod_nonneg _ (Int.ne_of_gt hCount)

theorem ofHash_lt (b : Bucketer) (h : Int32) : b.ofHash h < b.count := by
  have hCount := Int32.lt_iff_toInt_lt.mp b.count_pos
  rw [Int32.lt_iff_toInt_lt, toInt_ofHash]
  exact Int.emod_lt_of_pos _ hCount

end Bucketer

namespace Assigner

variable (a : Assigner)

theorem hash_null : a.hash .null = .error (.valueNotOfSource .null a.source) := by
  have hFits : Value.null.fits a.type = true := by rw [Value.fits]
  unfold hash
  rw [if_pos hFits]
  cases a.source <;> rfl

theorem hash_of_not_fits {v : Value} (h : v.fits a.type = false) :
    a.hash v = .error (.valueNotOfType v a.type) := by
  unfold hash
  rw [h]
  rfl

theorem assign_of_fits {v : Value} (hFits : v.fits a.type = true) (hNull : v.isNull = false) :
    a.assign v = (some ∘ a.bucketer.ofHash) <$> v.hash := by
  rw [assign, hNull, a.hash_eq_hash hFits hNull]
  rfl

theorem assign_eq_ok_none_iff (v : Value) : a.assign v = .ok none ↔ v = .null := by
  constructor
  · intro h
    cases hNull : v.isNull with
    | true => exact Value.eq_null_of_isNull hNull
    | false =>
      rw [assign, hNull, if_neg Bool.false_ne_true, Outcome.map_eq_ok_iff] at h
      obtain ⟨n, -, hn⟩ := h
      cases hn
  · rintro rfl
    rfl

theorem exists_fault_of_assign_iff (v : Value) :
    (∃ fault, a.assign v = .error fault) ↔
      v ≠ .null ∧
        (v.fits a.type = false ∨ ∃ r, v = .record r ∧ ∃ c ∈ r, c.1.type.isNested = true) := by
  rw [← Value.isNull_eq_false_iff]
  cases hNull : v.isNull with
  | true =>
    rw [Value.eq_null_of_isNull hNull]
    exact ⟨nofun, nofun⟩
  | false =>
    rw [and_iff_right rfl]
    cases hFits : v.fits a.type with
    | false =>
      refine ⟨fun _ => .inl rfl, fun _ => ⟨.valueNotOfType v a.type, ?_⟩⟩
      rw [assign, hNull, a.hash_of_not_fits hFits]
      rfl
    | true =>
      simp only [a.assign_of_fits hFits hNull, Outcome.map_eq_error_iff, Bool.true_eq_false, false_or]
      exact Value.exists_fault_of_hash_iff a.source_eq hNull hFits

/-- The source is asked only for values of the bound type, so none but a null is found not to be of
the source. -/
theorem exists_hash_eq_valueNotOfSource_iff (v : Value) :
    (∃ w source, a.hash v = .error (.valueNotOfSource w source)) ↔ v = .null := by
  constructor
  · rintro ⟨w, source, h⟩
    cases hNull : v.isNull with
    | true => exact Value.eq_null_of_isNull hNull
    | false =>
      cases hFits : v.fits a.type with
      | false =>
        rw [a.hash_of_not_fits hFits] at h
        cases h
      | true =>
        rw [a.hash_eq_hash hFits hNull, Value.hash_eq_error_iff _ a.source_eq hNull hFits] at h
        obtain ⟨f, ⟨⟩⟩ := ColumnType.exists_field_of_hashFault? h
  · rintro rfl
    exact ⟨.null, a.source, a.hash_null⟩

end Assigner

/-- A bound bucketer assigns every value that fits, by its canonical hash, to a bucket below the
count. It assigns nothing to a null, and refuses what does not fit and records with a nested field. -/
theorem Bucketer.assign_of_bind {b : Bucketer} {t : ColumnType} {a : Assigner}
    (hBind : b.bind t = .ok a) (v : Value) :
    (a.assign v = .ok none ↔ v = .null) ∧
      ((∃ fault, a.assign v = .error fault) ↔
        v ≠ .null ∧
          (v.fits t = false ∨ ∃ r, v = .record r ∧ ∃ c ∈ r, c.1.type.isNested = true)) ∧
      (v ≠ .null → v.fits t = true → (∀ r, v = .record r → ∀ c ∈ r, c.1.type.isNested = false) →
        ∃ n k, v.hash = .ok n ∧ a.hash v = .ok n ∧ a.assign v = .ok (some k) ∧
          k.toInt = (n &&& Int32.maxValue).toInt % b.count.toInt ∧ 0 ≤ k ∧ k < b.count) ∧
      ((∃ w source, a.hash v = .error (.valueNotOfSource w source)) ↔ v = .null) := by
  obtain rfl := type_eq_of_bind hBind
  obtain rfl := bucketer_eq_of_bind hBind
  refine ⟨a.assign_eq_ok_none_iff v, a.exists_fault_of_assign_iff v, ?_,
    a.exists_hash_eq_valueNotOfSource_iff v⟩
  intro hNull hFits hFlat
  rw [← Value.isNull_eq_false_iff] at hNull
  cases hHash : v.hash with
  | error fault =>
    obtain ⟨r, hr, c, hc, hNested⟩ :=
      (Value.exists_fault_of_hash_iff a.source_eq hNull hFits).mp ⟨fault, hHash⟩
    cases (hFlat r hr c hc).symm.trans hNested
  | ok n =>
    refine ⟨n, a.bucketer.ofHash n, rfl, ?_, ?_, a.bucketer.toInt_ofHash n, a.bucketer.ofHash_nonneg n,
      a.bucketer.ofHash_lt n⟩
    · rw [a.hash_eq_hash hFits hNull, hHash]
    · rw [a.assign_of_fits hFits hNull, hHash]
      rfl

/-- A number with a hash below zero, of a precision that no decimal has on its own. -/
theorem Bucketer.assign_of_bind_decimal :
    (⟨16, by decide⟩ : Bucketer).bind (.decimal 200 2) =
        .ok ⟨⟨16, by decide⟩, .decimal 200 2, .decimal, rfl⟩ ∧
      ∃ n k, n < 0 ∧ (Value.decimal ⟨120, 2, ⟨1⟩⟩).hash = .ok n ∧
        Assigner.assign ⟨⟨16, by decide⟩, .decimal 200 2, .decimal, rfl⟩ (.decimal ⟨120, 2, ⟨1⟩⟩) =
          .ok (some k) ∧ 0 ≤ k ∧ k < 16 := by
  have hBind : (⟨16, by decide⟩ : Bucketer).bind (.decimal 200 2) =
      .ok ⟨⟨16, by decide⟩, .decimal 200 2, .decimal, rfl⟩ := rfl
  have hLaw := (assign_of_bind hBind (.decimal ⟨120, 2, ⟨1⟩⟩)).2.2.1
  obtain ⟨n, k, hHash, -, hAssign, -, hNonneg, hLt⟩ := hLaw nofun rfl nofun
  have hNegative : n < 0 := by
    cases hHash
    decide
  exact ⟨hBind, n, k, hNegative, hHash, hAssign, hNonneg, hLt⟩

end Bucketing
