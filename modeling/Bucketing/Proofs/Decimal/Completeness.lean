import Bucketing.Proofs.Decimal.Exactness

/-! # What can be written is read

A plain numeral of an integer that the precision admits is read, as long as the scale is no greater
than the precision. The reading goes through 128 bits, and so a scale that takes zeros off has to be
a power of ten of that width, and the digits before that a number of it.
-/
namespace Bucketing.Decimal

open Int128 (InRange)
open Tally

theorem inRange_pow {k : Nat} (h : k ≤ maxPrecision) : InRange (10 ^ k : Nat) := by
  have hMax : InRange (10 ^ maxPrecision : Nat) := by decide
  exact hMax.of_le (Nat.pow_le_pow_right (by decide) h)

theorem count_le_of_natAbs_lt {precision : UInt8} {scale : Int8} {n : PlainNumeral} {u : Int}
    (hScale : scale.toInt ≤ precision.toNat) (hn : n.WellFormed)
    (hPlaces : n.fraction.length ≤ scale.toInt.toNat)
    (h : u * (10 ^ placesDown scale : Nat) = n.coefficient * (10 ^ placesUp scale n.fraction : Nat))
    (hu : u.natAbs < 10 ^ precision.toNat) :
    (Numeral.stripZeros n.whole).length + scale.toInt.toNat - placesDown scale ≤ precision.toNat := by
  cases hLength : (Numeral.stripZeros n.whole).length with
  | zero =>
    omega
  | succ k =>
    have hWhole : 10 ^ k ≤ Numeral.value n.whole := by
      rw [← Nat.not_lt, ← Numeral.length_stripZeros_le_iff hn.whole, hLength]
      exact Nat.not_succ_le_self k
    have hAppended : n.fraction.length + placesUp scale n.fraction = scale.toInt.toNat := by
      rw [placesUp]
      omega
    have hPow : 10 ^ (k + scale.toInt.toNat) < 10 ^ (precision.toNat + placesDown scale) :=
      calc 10 ^ (k + scale.toInt.toNat)
          = 10 ^ n.fraction.length * 10 ^ k * 10 ^ placesUp scale n.fraction := by
            rw [← hAppended, ← pow_add, ← pow_add]
            congr 1
            omega
        _ ≤ Numeral.value n.digits * 10 ^ placesUp scale n.fraction := by
            apply Nat.mul_le_mul_right
            rw [PlainNumeral.digits, Numeral.value_append]
            exact Nat.le_add_right_of_le (Nat.mul_le_mul_left _ hWhole)
        _ = u.natAbs * 10 ^ placesDown scale := (natAbs_mul_eq h).symm
        _ < 10 ^ (precision.toNat + placesDown scale) := by
            rw [pow_add]
            exact Nat.mul_lt_mul_of_pos_right hu (Nat.pow_pos (by decide))
    have hLt := (Nat.pow_lt_pow_iff_right (by decide)).mp hPow
    omega

theorem readable_of_natAbs_lt {precision : UInt8} {scale : Int8} {n : PlainNumeral} {u : Int}
    (hPrecision : precision.toNat ≤ maxPrecision) (hLow : -maxPrecision ≤ scale.toInt)
    (hHigh : scale.toInt ≤ precision.toNat) (hn : n.WellFormed)
    (hPlaces : n.fraction.length ≤ scale.toInt.toNat)
    (hFits : scale.toInt < 0 → InRange (Numeral.value n.digits))
    (h : u * (10 ^ placesDown scale : Nat) = n.coefficient * (10 ^ placesUp scale n.fraction : Nat))
    (hu : u.natAbs < 10 ^ precision.toNat) : Readable precision scale n := by
  have hValue := natAbs_mul_eq h
  have hDown : InRange (10 ^ placesDown scale : Nat) := by
    apply inRange_pow
    rw [placesDown]
    omega
  have hUp : InRange (10 ^ placesUp scale n.fraction : Nat) := by
    apply inRange_pow
    rw [placesUp]
    omega
  have hCount := count_le_of_natAbs_lt hHigh hn hPlaces h hu
  rcases Int.lt_or_le scale.toInt 0 with hScale | hScale
  · -- zeros are taken off, and none appended
    have hNone : placesUp scale n.fraction = 0 := by
      rw [placesUp]
      omega
    rw [hNone, Nat.pow_zero, Nat.mul_one] at hValue
    refine ⟨hn, hPlaces, hFits hScale, ⟨hDown, ?_, hUp, ?_⟩, hCount⟩
    · change _ ∣ Numeral.value n.digits
      rw [← hValue]
      exact Nat.dvd_mul_left _ _
    · rw [hNone, Nat.pow_zero, Nat.mul_one]
      exact hFits hScale
  · have hNone : placesDown scale = 0 := by
      rw [placesDown]
      omega
    rw [hNone, Nat.pow_zero, Nat.mul_one] at hValue
    have hRange : InRange (Numeral.value n.digits * 10 ^ placesUp scale n.fraction : Nat) := by
      rw [← hValue]
      exact (inRange_pow hPrecision).of_le (Nat.le_of_lt hu)
    refine ⟨hn, hPlaces, hRange.of_le (Nat.le_mul_of_pos_right _ (Nat.pow_pos (by decide))),
      ⟨hDown, ?_, hUp, hRange⟩, hCount⟩
    rw [hNone]
    exact Nat.one_dvd _

theorem exists_read_of_number {precision : UInt8} {scale : Int8} {n : PlainNumeral} {text : List Char}
    {u : Int} (hPrecision : precision.toNat ≤ maxPrecision) (hLow : -maxPrecision ≤ scale.toInt)
    (hHigh : scale.toInt ≤ precision.toNat) (hText : n.SpelledBy text)
    (hPlaces : n.fraction.length ≤ scale.toInt.toNat)
    (hFits : scale.toInt < 0 → InRange (Numeral.value n.digits))
    (hNumber : n.number = u * 10 ^ (-scale.toInt)) (hu : u.natAbs < 10 ^ precision.toNat) :
    ∃ v : Int128, v.toInt = u ∧ read precision scale text = some v := by
  have hScaled := (scaled_eq_iff hPlaces u).mpr hNumber
  obtain ⟨rfl, hn⟩ := (PlainNumeral.spelledBy_iff n text).mp hText
  have hReadable := readable_of_natAbs_lt hPrecision hLow hHigh hn hPlaces hFits hScaled hu
  obtain ⟨v, hv, hvScaled⟩ := (decides_parse precision scale text).exists_ok hReadable
  refine ⟨v, ?_, by rw [read, hv]; rfl⟩
  have hPos : 0 < ((10 ^ placesDown scale : Nat) : Int) := Int.natCast_pos.mpr (Nat.pow_pos (by decide))
  exact Int.eq_of_mul_eq_mul_right (Int.ne_of_gt hPos) (hvScaled.trans hScaled.symm)

theorem eq_mul_zpow_neg_iff (q r : ℚ) (scale : Int) : q = r * 10 ^ (-scale) ↔ q * 10 ^ scale = r := by
  rw [zpow_neg, eq_mul_inv_iff_mul_eq₀ (zpow_ne_zero _ (by norm_num))]

/-- Every integer of the precision is read off every plain numeral of its value, where the scale is
in the range of the powers of ten and no greater than the precision; digits that a negative scale
shortens have to be a number of 128 bits before that. -/
theorem read_complete {precision : UInt8} {scale : Int8} {n : PlainNumeral} {text : List Char}
    (hPrecision : 1 ≤ precision.toNat ∧ precision.toNat ≤ 38) (hLow : -38 ≤ scale.toInt)
    (hHigh : scale.toInt ≤ precision.toNat) (hText : n.SpelledBy text)
    (hPlaces : n.fraction.length ≤ scale.toInt.toNat)
    (hFits : scale.toInt < 0 → Numeral.value n.digits < 2 ^ 127) :
    (∀ u : Int, n.number * 10 ^ scale.toInt = u → u.natAbs < 10 ^ precision.toNat →
        ∃ v : Int128, v.toInt = u ∧ read precision scale text = some v) ∧
      ∀ v d, make precision scale v = .ok d → n.number * 10 ^ scale.toInt = v.toInt →
        read precision scale text = some v := by
  have hRange : scale.toInt < 0 → InRange (Numeral.value n.digits) := by
    intro hNegative
    have hWidth := hFits hNegative
    simp only [InRange]
    omega
  have hRead : ∀ u : Int, n.number * 10 ^ scale.toInt = u → u.natAbs < 10 ^ precision.toNat →
      ∃ v : Int128, v.toInt = u ∧ read precision scale text = some v := by
    intro u hNumber hu
    exact exists_read_of_number hPrecision.2 hLow hHigh hText hPlaces hRange
      ((eq_mul_zpow_neg_iff _ _ _).mpr hNumber) hu
  refine ⟨hRead, fun v d hMake hNumber => ?_⟩
  obtain ⟨-, hv, -⟩ := (make_eq_ok_iff precision scale v d).mp hMake
  obtain ⟨w, hw, hText⟩ := hRead v.toInt hNumber hv
  rwa [Int128.eq_of_toInt_eq hw] at hText

/-- Zeros at either end, and a sign that says nothing. -/
theorem read_complete_hundreds :
    PlainNumeral.SpelledBy ⟨false, "0012300".toList, []⟩ "+0012300".toList ∧
      ∃ v : Int128, v.toInt = 123 ∧ read 3 (-2) "+0012300".toList = some v := by
  have hText : PlainNumeral.SpelledBy ⟨false, "0012300".toList, []⟩ "+0012300".toList :=
    ⟨⟨by decide, by decide, by decide⟩, "0012300".toList, .plus _, .bare _⟩
  have hNumber : PlainNumeral.number ⟨false, "0012300".toList, []⟩ * 10 ^ (-2 : Int8).toInt = (123 : Int) :=
    (eq_mul_zpow_neg_iff _ _ _).mp ((scaled_eq_iff (by decide) 123).mp (by decide))
  exact ⟨hText, (read_complete (by decide) (by decide) (by decide) hText (by decide) (by decide)).1 123
    hNumber (by decide)⟩

/-- An admitted integer that is not read off a plain numeral of its value. -/
def Overlooks (precision : UInt8) (scale : Int8) (text : List Char) : Prop :=
  ∃ (n : PlainNumeral) (v : Int128), n.SpelledBy text ∧ n.fraction.length ≤ scale.toInt.toNat ∧
    n.number * 10 ^ scale.toInt = v.toInt ∧ make precision scale v = .ok ⟨precision, scale, v⟩ ∧
      read precision scale text = none

/-- Digits of more than 128 bits before two zeros are taken off; a power of ten of more than 128
bits; a precision below the scale, for which the zero behind the point is a digit too many. -/
theorem overlooks_at_each_bound :
    Overlooks 38 (-2) (List.replicate 38 '9' ++ ['0', '0']) ∧ Overlooks 1 (-39) ['0'] ∧
      Overlooks 1 2 "0.05".toList := by
  refine ⟨⟨⟨false, List.replicate 38 '9' ++ ['0', '0'], []⟩, ⟨99999999999999999999999999999999999999⟩,
    ⟨⟨by decide, by decide, by decide⟩, _, .bare _, .bare _⟩, by decide, ?_, by rfl, by rfl⟩,
    ⟨⟨false, ['0'], []⟩, ⟨0⟩, ⟨⟨by decide, by decide, by decide⟩, _, .bare _, .bare _⟩, by decide, ?_,
      by rfl, by rfl⟩,
    ⟨⟨false, ['0'], ['0', '5']⟩, ⟨5⟩, ⟨⟨by decide, by decide, by decide⟩, _, .bare _, .point _ _⟩,
      by decide, ?_, by rfl, by rfl⟩⟩
  · exact (eq_mul_zpow_neg_iff _ _ _).mp ((scaled_eq_iff (by decide) _).mp (by decide))
  · exact (eq_mul_zpow_neg_iff _ _ _).mp ((scaled_eq_iff (by decide) _).mp (by decide))
  · exact (eq_mul_zpow_neg_iff _ _ _).mp ((scaled_eq_iff (by decide) _).mp (by decide))

end Bucketing.Decimal
