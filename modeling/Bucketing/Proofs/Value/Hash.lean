import Bucketing.Proofs.Floating.Equality
import Bucketing.Proofs.Record.CanonicalText

/-! # Equal values have equal hashes

Each kind has its own equality and its own canonical bytes. They line up: by value for numbers, by
canonical text for records. All NaN share one hash, though none of them equals another.
-/
namespace Bucketing

theorem Floating.hash_eq_of_canonicalBits_eq {x y : Floating .double}
    (h : x.canonicalBits = y.canonicalBits) : x.hash = y.hash := by
  rw [hash, hash, h]

theorem Decimal.hash_eq_of_unscaled_eq {d e : Decimal} (h : d.unscaled = e.unscaled) :
    d.hash = e.hash := by
  rw [hash, hash, unscaledBytes, unscaledBytes, h]

/-- Why no value of the type has a hash: the first nested field of a record. -/
def ColumnType.hashFault? : ColumnType → Option Fault
  | .record fields =>
    (fields.find? (·.type.isNested)).map fun f => .nestedFieldNotHashed f.name f.type
  | _ => none

theorem ColumnType.hashFault?_eq_none {t : ColumnType} (h : t.kind ≠ .record) : t.hashFault? = none := by
  cases t <;> first | rfl | exact absurd rfl h

namespace Record

theorem hash_eq_error_iff (r : Record) (fault : Fault) :
    hash r = .error fault ↔ (type r).hashFault? = some fault := by
  rw [hash, Outcome.map_eq_error_iff, canonicalText, type, ColumnType.hashFault?]
  cases (fields r).find? (·.type.isNested) with
  | none => simp
  | some f => simp

theorem exists_fault_of_hash_iff (r : Record) :
    (∃ fault, hash r = .error fault) ↔ ∃ c ∈ r, c.1.type.isNested = true := by
  simp only [hash_eq_error_iff]
  rw [← Option.isSome_iff_exists, type, ColumnType.hashFault?, Option.isSome_map, List.find?_isSome]
  simp [fields]

theorem hash_eq_ok {r : Record} (hFlat : Flat r) :
    hash r = .ok (hashText ((fieldsById r).flatMap (canonicalCell r))) := by
  rw [hash, canonicalText_eq_ok hFlat]
  rfl

theorem hash_eq_of_compareCells_eq {a b : Record} (ha : (Value.record a).wellMade = true)
    (hb : (Value.record b).wellMade = true) (hFields : fields a = fields b)
    (h : Value.compareCells a b = .ok .eq) : hash a = hash b := by
  have hText : canonicalText a = canonicalText b := by
    cases hNested : (fields a).find? (·.type.isNested) with
    | none =>
      have hFlat : Flat a := (flat_iff a).mpr hNested
      apply canonicalText_congr hFields
      intro name
      exact ((compareCells_eq_ok_eq_iff_fieldText ha hb hFields hFlat).mp h name).2
    | some f => rw [canonicalText, canonicalText, ← hFields, hNested]
  rw [hash, hash, hText]

end Record

namespace Value

/-- Decimals are compared across scales, but hashed without them. -/
theorem hash_eq_of_tryCompare_eq {v w : Value} (hv : v.wellMade = true) (hw : w.wellMade = true)
    (h : v.tryCompare w = .ok (some .eq))
    (hScale : ∀ d e, v = .decimal d → w = .decimal e → d.scale = e.scale) : v.hash = w.hash := by
  cases sameKind_of_tryCompare h with
  | boolean a b => rfl
  | float32 x y =>
    rw [tryCompare, Except.ok.injEq] at h
    have hBits := Floating.canonicalBits_eq_of_compare?_eq (Floating.widen_compare?_widen_eq h)
    rw [hash, hash, Floating.hash_eq_of_canonicalBits_eq hBits]
  | float64 x y =>
    rw [tryCompare, Except.ok.injEq] at h
    have hBits := Floating.canonicalBits_eq_of_compare?_eq h
    rw [hash, hash, Floating.hash_eq_of_canonicalBits_eq hBits]
  | decimal d e =>
    rw [tryCompare_decimal (hScale d e rfl rfl), Except.ok.injEq, Option.some.injEq,
      Int128.compare_eq_eq_iff] at h
    rw [hash, hash, Decimal.hash_eq_of_unscaled_eq h]
  | uuid u v =>
    rw [tryCompare, Except.ok.injEq, Option.some.injEq, Uuid.compare_eq_eq_iff] at h
    rw [h]
  | record a b =>
    have hFields := fields_eq_of_tryCompare h
    rw [tryCompare_record hFields, Outcome.map_eq_ok_iff] at h
    obtain ⟨o, hCells, ho⟩ := h
    cases ho
    rw [hash, hash, Record.hash_eq_of_compareCells_eq hv hw hFields hCells]
  | _ =>
    rw [tryCompare, Except.ok.injEq, Option.some.injEq, Std.LawfulEqOrd.compare_eq_iff_eq] at h
    rw [h]

theorem hash_of_isNaN {v : Value} (h : v.isNaN = true) :
    v.hash = .ok (Murmur.hash (Murmur.littleEndian 8 (Floating.nan .double false).bits)) := by
  cases v with
  | float32 x =>
    rw [hash, Floating.hash, Floating.canonicalBits_of_isNaN ((Floating.isNaN_widen x).trans h)]
  | float64 x => rw [hash, Floating.hash, Floating.canonicalBits_of_isNaN h]
  | _ => cases h

/-- Values that compare equal hash alike or are both refused, and so do any two NaN, of either width
and whatever their bits. -/
theorem hash_eq_of_equal_or_isNaN {v w : Value} (hv : v.wellMade = true) (hw : w.wellMade = true)
    (h : (v.tryCompare w = .ok (some .eq) ∧
        ∀ d e, v = .decimal d → w = .decimal e → d.scale = e.scale) ∨
      (v.isNaN = true ∧ w.isNaN = true)) : v.hash = w.hash := by
  rcases h with ⟨hEqual, hScale⟩ | ⟨hvNaN, hwNaN⟩
  · exact hash_eq_of_tryCompare_eq hv hw hEqual hScale
  · rw [hash_of_isNaN hvNaN, hash_of_isNaN hwNaN]

theorem hash_eq_of_nan_payloads :
    (Value.record (Record.measurement 0x7ff8000000000001)).hash =
        (Value.record (Record.measurement 0xfff0000000000002)).hash ∧
      (Value.float32 (.ofBits .single 0xff800001)).hash =
        (Value.float64 (.ofBits .double 0x7ff8000000000001)).hash :=
  ⟨hash_eq_of_equal_or_isNaN rfl rfl (.inl ⟨rfl, nofun⟩),
    hash_eq_of_equal_or_isNaN rfl rfl (.inr ⟨rfl, rfl⟩)⟩

end Value

end Bucketing
