import Bucketing.Proofs.Outcome
import Bucketing.Value.Reading
import Mathlib.Algebra.Group.Nat.Defs
import Mathlib.Data.Nat.Log

/-! # Admitted decimals and values that are read

The digits of a number fit in a precision exactly if the number is below that power of ten, or if the
place of its leading digit is below the precision. Zero has no leading digit and fits in every
precision.

Reading never gives a null, and what it gives a column of the type can hold. A decimal is of the very
precision and scale that it is read at.
-/
namespace Bucketing

namespace Decimal

theorem checkPrecision_eq_ok_iff (precision : UInt8) :
    checkPrecision precision = .ok () ↔ 1 ≤ precision.toNat ∧ precision.toNat ≤ maxPrecision := by
  rw [checkPrecision]
  split
  · next h => exact iff_of_true rfl h
  · next h => exact iff_of_false nofun h

theorem make_eq_ok_iff (precision : UInt8) (scale : Int8) (unscaled : Int128) (d : Decimal) :
    make precision scale unscaled = .ok d ↔
      (1 ≤ precision.toNat ∧ precision.toNat ≤ maxPrecision) ∧
        unscaled.toInt.natAbs < 10 ^ precision.toNat ∧ d = ⟨precision, scale, unscaled⟩ := by
  rw [make, Outcome.bind_unit_eq_ok_iff, checkPrecision_eq_ok_iff, and_congr_right_iff]
  intro hPrecision
  rw [← Nat.length_toDigits_le_iff (by decide) hPrecision.1]
  split
  · next h => exact ⟨fun hd => ⟨h, (Except.ok.inj hd).symm⟩, fun hd => congrArg Except.ok hd.2.symm⟩
  · next h => exact iff_of_false nofun fun hd => h hd.1

theorem make_of_precision {precision : UInt8}
    (h : ¬(1 ≤ precision.toNat ∧ precision.toNat ≤ maxPrecision)) (scale : Int8) (unscaled : Int128) :
    make precision scale unscaled = .error (.precisionOutOfRange precision) := by
  rw [make, checkPrecision, if_neg h]
  rfl

theorem make_of_pow_le {precision : UInt8} {unscaled : Int128}
    (hPrecision : 1 ≤ precision.toNat ∧ precision.toNat ≤ maxPrecision)
    (hSize : 10 ^ precision.toNat ≤ unscaled.toInt.natAbs) (scale : Int8) :
    make precision scale unscaled = .error (.precisionExceeded unscaled precision) := by
  have hDigits : ¬(Nat.toDigits 10 unscaled.toInt.natAbs).length ≤ precision.toNat := by
    rw [Nat.length_toDigits_le_iff (by decide) hPrecision.1, Nat.not_lt]
    exact hSize
  rw [make, (checkPrecision_eq_ok_iff precision).mpr hPrecision, if_neg hDigits]
  rfl

theorem lt_pow_iff_log (n digits : Nat) : n < 10 ^ digits ↔ n = 0 ∨ Nat.log 10 n + 1 ≤ digits := by
  by_cases hZero : n = 0
  · rw [hZero]
    exact iff_of_true (Nat.pow_pos (by decide)) (.inl rfl)
  · rw [or_iff_right hZero, Nat.succ_le_iff, Nat.log_lt_iff_lt_pow (by decide) hZero]

theorem exists_make_iff (precision : UInt8) (scale : Int8) (unscaled : Int128) :
    (∃ d, make precision scale unscaled = .ok d) ↔
      (1 ≤ precision.toNat ∧ precision.toNat ≤ maxPrecision) ∧
        unscaled.toInt.natAbs < 10 ^ precision.toNat := by
  constructor
  · rintro ⟨d, h⟩
    obtain ⟨hPrecision, hSize, -⟩ := (make_eq_ok_iff precision scale unscaled d).mp h
    exact ⟨hPrecision, hSize⟩
  · rintro ⟨hPrecision, hSize⟩
    exact ⟨_, (make_eq_ok_iff precision scale unscaled _).mpr ⟨hPrecision, hSize, rfl⟩⟩

/-- A decimal is admitted exactly if its precision is one of 1 to 38 and its unscaled integer is below
that power of ten, which the place of the leading digit tells as well. It is then kept as it is, and
each of the two refusals has a fault of its own. -/
theorem make_exact (precision : UInt8) (scale : Int8) (unscaled : Int128) :
    ((∃ d, make precision scale unscaled = .ok d) ↔
        (1 ≤ precision.toNat ∧ precision.toNat ≤ 38) ∧
          unscaled.toInt.natAbs < 10 ^ precision.toNat) ∧
      ((∃ d, make precision scale unscaled = .ok d) ↔
        (1 ≤ precision.toNat ∧ precision.toNat ≤ 38) ∧
          (unscaled.toInt = 0 ∨ Nat.log 10 unscaled.toInt.natAbs + 1 ≤ precision.toNat)) ∧
      make precision scale unscaled =
        if 1 ≤ precision.toNat ∧ precision.toNat ≤ 38 then
          if unscaled.toInt.natAbs < 10 ^ precision.toNat then .ok ⟨precision, scale, unscaled⟩
          else .error (.precisionExceeded unscaled precision)
        else .error (.precisionOutOfRange precision) := by
  refine ⟨exists_make_iff precision scale unscaled, ?_, ?_⟩
  · rw [exists_make_iff, lt_pow_iff_log, Int.natAbs_eq_zero]
    rfl
  · split
    · next hPrecision =>
      split
      · next hSize =>
        exact (make_eq_ok_iff precision scale unscaled _).mpr ⟨hPrecision, hSize, rfl⟩
      · next hSize => exact make_of_pow_le hPrecision (Nat.le_of_not_lt hSize) scale
    · next hPrecision => exact make_of_precision hPrecision scale unscaled

/-- The least integer of 128 bits has 39 digits. -/
example : make 38 0 ⟨.intMin 128⟩ = .error (.precisionExceeded ⟨.intMin 128⟩ 38) := rfl

end Decimal

namespace Value

variable {t : ColumnType} {text : String} {v : Value}

theorem read_eq_ok_iff : read t text = .ok v ↔ read? t text = .ok (some v) := by
  rw [read, Outcome.bind_eq_ok_iff]
  constructor
  · rintro ⟨found, hFound, h⟩
    cases found with
    | none => cases h
    | some w =>
      cases h
      exact hFound
  · intro h
    exact ⟨some v, h, rfl⟩

theorem read_decimal_eq_ok_iff {precision : UInt8} {scale : Int8} :
    read (.decimal precision scale) text = .ok v ↔
      ∃ unscaled, Decimal.read precision scale text.toList = some unscaled ∧
        Decimal.make precision scale unscaled = .ok ⟨precision, scale, unscaled⟩ ∧
        v = .decimal ⟨precision, scale, unscaled⟩ := by
  rw [read_eq_ok_iff, read?]
  cases hRead : Decimal.read precision scale text.toList with
  | none => simp
  | some unscaled =>
    dsimp only
    rw [Outcome.map_eq_ok_iff]
    constructor
    · rintro ⟨d, hMake, hv⟩
      obtain ⟨-, -, rfl⟩ := (Decimal.make_eq_ok_iff precision scale unscaled d).mp hMake
      exact ⟨unscaled, rfl, hMake, (Option.some.inj hv).symm⟩
    · rintro ⟨_, ⟨⟩, hMake, rfl⟩
      exact ⟨_, hMake, rfl⟩

theorem fits_of_read (h : read t text = .ok v) : v.fits t = true ∧ v.isNull = false := by
  cases t with
  | decimal precision scale =>
    obtain ⟨unscaled, -, -, rfl⟩ := read_decimal_eq_ok_iff.mp h
    simp [fits, isNull]
  | record fields => cases h
  | list item => cases h
  | map key value => cases h
  | utf8 =>
    cases h
    exact ⟨rfl, rfl⟩
  | _ =>
    obtain ⟨x, -, rfl⟩ := Option.map_eq_some_iff.mp (Except.ok.inj (read_eq_ok_iff.mp h))
    exact ⟨rfl, rfl⟩

end Value

end Bucketing
