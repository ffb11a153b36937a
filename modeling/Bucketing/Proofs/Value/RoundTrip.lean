import Bucketing.Proofs.Decimal.Completeness
import Bucketing.Proofs.Decimal.Text
import Bucketing.Proofs.Floating.Reading
import Bucketing.Proofs.Text.Hex.Reader
import Bucketing.Proofs.Text.Integer
import Bucketing.Proofs.Uuid
import Bucketing.Proofs.Value.Reading

/-! # Values read back from their text

Each kind of value has its own text and its own way of being read. What is written at a type is read
at it as the same value, up to the bits of a NaN; of decimals only those whose text is plain.
-/
namespace Bucketing

namespace Decimal

/-- The plain text is a plain numeral with one digit behind the point for each place of the scale. The
zeros in front of it are no digits too many, since the scale is no greater than the precision. -/
theorem read_text {d : Decimal} (hPrecision : d.precision.toNat ≤ maxPrecision)
    (hScale : 0 ≤ d.scale.toInt) (hHigh : d.scale.toInt ≤ d.precision.toNat)
    (hUnscaled : d.unscaled.toInt.natAbs < 10 ^ d.precision.toNat) (hPlain : -6 ≤ d.adjusted) :
    read d.precision d.scale d.text = some d.unscaled := by
  obtain ⟨n, hText, hCoefficient, hLength⟩ := exists_plain_spelledBy_text ⟨hScale, hPlain⟩
  have hPlaces : n.fraction.length ≤ d.scale.toInt.toNat := Nat.le_of_eq hLength
  have hNumber : n.number = d.unscaled.toInt * 10 ^ (-d.scale.toInt) := by
    rw [← scaled_eq_iff hPlaces, hCoefficient, Tally.placesUp, Tally.placesDown, hLength, Nat.sub_self,
      Int.toNat_of_nonpos (Int.neg_nonpos_of_nonneg hScale)]
  obtain ⟨v, hv, hRead⟩ := exists_read_of_number hPrecision (by omega) hHigh hText hPlaces
    (fun hNegative => absurd hNegative (Int.not_lt.mpr hScale)) hNumber hUnscaled
  rwa [Int128.eq_of_toInt_eq hv] at hRead

end Decimal

namespace Value

/-- A value with its type, of the types that have neither parts nor parameters. -/
inductive Simple : ColumnType → Value → Prop where
  | boolean (b : Bool) : Simple .boolean (.boolean b)
  | int32 (n : Int32) : Simple .int32 (.int32 n)
  | int64 (n : Int64) : Simple .int64 (.int64 n)
  | float32 (x : Floating .single) : Simple .float32 (.float32 x)
  | float64 (x : Floating .double) : Simple .float64 (.float64 x)
  | utf8 (s : String) : Simple .utf8 (.utf8 s)
  | binary (bytes : List UInt8) : Simple .binary (.binary bytes)
  | uuid (u : Uuid) : Simple .uuid (.uuid u)

theorem simple_of_kind? {t : ColumnType} {v : Value}
    (ht : t ∈ [.boolean, .int32, .int64, .float32, .float64, .utf8, .binary, .uuid])
    (h : v.kind? = some t.kind) : Simple t v := by
  simp only [List.mem_cons, List.not_mem_nil, or_false] at ht
  rcases ht with rfl | rfl | rfl | rfl | rfl | rfl | rfl | rfl <;> cases v <;> cases h <;> constructor

theorem toList_toString (v : Value) : (toString v).toList = v.text := String.toList_ofList

theorem exists_read_of_not_isNaN {t : ColumnType} {v : Value} (hNaN : v.isNaN = false)
    (h : read? t (toString v) = .ok (some v)) :
    ∃ w, read t (toString v) = .ok w ∧ (v.isNaN = false → w = v) ∧
      (v.isNaN = true → w.isNaN = true ∧ w.kind? = v.kind?) := by
  refine ⟨v, read_eq_ok_iff.mpr h, fun _ => rfl, fun hTrue => ?_⟩
  rw [hNaN] at hTrue
  cases hTrue

theorem exists_read_of_simple {t : ColumnType} {v : Value} (h : Simple t v) :
    ∃ w, read t (toString v) = .ok w ∧ (v.isNaN = false → w = v) ∧
      (v.isNaN = true → w.isNaN = true ∧ w.kind? = v.kind?) := by
  cases h with
  | boolean b =>
    apply exists_read_of_not_isNaN rfl
    cases b <;> rfl
  | int32 n =>
    apply exists_read_of_not_isNaN rfl
    rw [read?, toList_toString, text, Numeral.readInt32_write]
    rfl
  | int64 n =>
    apply exists_read_of_not_isNaN rfl
    rw [read?, toList_toString, text, Numeral.readInt64_write]
    rfl
  | float32 x =>
    refine ⟨.float32 x.unifyNaN, ?_, fun h => ?_, fun h => ⟨?_, rfl⟩⟩
    · rw [read_eq_ok_iff, read?, toList_toString, text, Floating.read_text Format.wide_single]
      rfl
    · rw [Floating.unifyNaN_of_not_isNaN h]
    · exact (Floating.isNaN_unifyNaN (by decide) x).trans h
  | float64 x =>
    refine ⟨.float64 x.unifyNaN, ?_, fun h => ?_, fun h => ⟨?_, rfl⟩⟩
    · rw [read_eq_ok_iff, read?, toList_toString, text, Floating.read_text Format.wide_double]
      rfl
    · rw [Floating.unifyNaN_of_not_isNaN h]
    · exact (Floating.isNaN_unifyNaN (by decide) x).trans h
  | utf8 s =>
    apply exists_read_of_not_isNaN rfl
    have hText : toString (utf8 s) = s := by
      rw [← String.toList_inj, toList_toString, text]
    rw [read?, hText]
  | binary bytes =>
    apply exists_read_of_not_isNaN rfl
    rw [read?, toList_toString, text, Hex.read_encode]
    rfl
  | uuid u =>
    apply exists_read_of_not_isNaN rfl
    rw [read?, toList_toString, text, Uuid.read_text]
    rfl

theorem read_decimal_toString {d : Decimal}
    (hPrecision : 1 ≤ d.precision.toNat ∧ d.precision.toNat ≤ Decimal.maxPrecision)
    (hScale : 0 ≤ d.scale.toInt ∧ d.scale.toInt ≤ d.precision.toNat)
    (hUnscaled : d.unscaled.toInt.natAbs < 10 ^ d.precision.toNat) (hPlain : -6 ≤ d.adjusted) :
    read (.decimal d.precision d.scale) (toString (decimal d)) = .ok (.decimal d) := by
  refine read_decimal_eq_ok_iff.mpr ⟨d.unscaled, ?_, ?_, rfl⟩
  · rw [toList_toString, text]
    exact Decimal.read_text hPrecision.2 hScale.1 hScale.2 hUnscaled hPlain
  · exact (Decimal.make_eq_ok_iff _ _ _ _).mpr ⟨hPrecision, hUnscaled, rfl⟩

/-- Reading inverts writing. A NaN comes back as a NaN of its type. Every other value of a type that is
neither nested nor decimal comes back as itself, and so does a decimal with a plain text. -/
theorem read_toString :
    (∀ t ∈ [ColumnType.boolean, .int32, .int64, .float32, .float64, .utf8, .binary, .uuid],
      ∀ v : Value, v.kind? = some t.kind →
        ∃ w, read t (toString v) = .ok w ∧ (v.isNaN = false → w = v) ∧
          (v.isNaN = true → w.isNaN = true ∧ w.kind? = v.kind?)) ∧
      ∀ (precision : UInt8) (scale : Int8) (unscaled : Int128),
        1 ≤ precision.toNat ∧ precision.toNat ≤ 38 → 0 ≤ scale.toInt ∧ scale.toInt ≤ precision.toNat →
        unscaled.toInt.natAbs < 10 ^ precision.toNat →
        -6 ≤ ((Nat.toDigits 10 unscaled.toInt.natAbs).length - 1 - scale.toInt : Int) →
          read (.decimal precision scale) (toString (decimal ⟨precision, scale, unscaled⟩)) =
            .ok (.decimal ⟨precision, scale, unscaled⟩) :=
  ⟨fun _ ht _ h => exists_read_of_simple (simple_of_kind? ht h),
    fun precision scale unscaled hPrecision hScale hUnscaled hPlain =>
      read_decimal_toString (d := ⟨precision, scale, unscaled⟩) hPrecision hScale hUnscaled hPlain⟩

/-- The negative zero, a NaN with a payload, and the smallest step of a scale. -/
theorem read_toString_boundaries :
    read .float64 "-0.0" = .ok (.float64 ⟨true, 0, by decide⟩) ∧
      (∃ w, read .float32 (toString (float32 (.ofBits .single 0xffc00001))) = .ok w ∧
        w.isNaN = true) ∧
      read (.decimal 6 6) "-0.000001" = .ok (.decimal ⟨6, 6, ⟨-1⟩⟩) := by
  refine ⟨?_, ?_, ?_⟩
  · have hText : toString (float64 ⟨true, 0, by decide⟩) = "-0.0" := by rfl
    obtain ⟨w, hRead, hSame, -⟩ :=
      read_toString.1 .float64 (by simp) (.float64 ⟨true, 0, by decide⟩) rfl
    rw [hText, hSame (by rfl)] at hRead
    exact hRead
  · obtain ⟨w, hRead, -, hNaN⟩ :=
      read_toString.1 .float32 (by simp) (.float32 (.ofBits .single 0xffc00001)) rfl
    exact ⟨w, hRead, (hNaN (by rfl)).1⟩
  · have hText : toString (decimal ⟨6, 6, ⟨-1⟩⟩) = "-0.000001" := by rfl
    rw [← hText]
    exact read_toString.2 6 6 ⟨-1⟩ (by decide) (by decide) (by decide) (by decide)

end Value

end Bucketing
