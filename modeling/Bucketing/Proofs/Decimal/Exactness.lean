import Bucketing.Proofs.Decimal.Reading
import Bucketing.Proofs.Value.Reading

/-! # What is read is what is written

A text that is read as a decimal is a plain numeral of exactly that value, and the digits that were
counted bound the unscaled integer. So the precision admits every integer that is read.
-/
namespace Bucketing

theorem PlainNumeral.value_digits_lt {n : PlainNumeral} (hn : n.WellFormed) :
    Numeral.value n.digits < 10 ^ ((Numeral.stripZeros n.whole).length + n.fraction.length) := by
  have hWhole := (Numeral.length_stripZeros_le_iff hn.whole _).mp le_rfl
  have hFraction := Numeral.value_lt_pow_length hn.fraction
  rw [digits, Numeral.value_append, pow_add]
  calc 10 ^ n.fraction.length * Numeral.value n.whole + Numeral.value n.fraction
      < 10 ^ n.fraction.length * (Numeral.value n.whole + 1) := by
        rw [Nat.mul_add, Nat.mul_one]
        exact Nat.add_lt_add_left hFraction _
    _ ≤ 10 ^ n.fraction.length * 10 ^ (Numeral.stripZeros n.whole).length :=
        Nat.mul_le_mul_left _ hWhole
    _ = _ := Nat.mul_comm _ _

theorem lt_pow_sub {a d k : Nat} (h : a * 10 ^ d < 10 ^ k) : a < 10 ^ (k - d) := by
  rcases Nat.le_total d k with hLe | hLe
  · rw [← Nat.sub_add_cancel hLe, pow_add] at h
    exact Nat.lt_of_mul_lt_mul_right h
  · have hPow : 10 ^ k ≤ 1 * 10 ^ d := by
      rw [Nat.one_mul]
      exact Nat.pow_le_pow_right (by decide) hLe
    rw [Nat.sub_eq_zero_of_le hLe, Nat.pow_zero]
    exact Nat.lt_of_mul_lt_mul_right (Nat.lt_of_lt_of_le h hPow)

namespace Decimal

open Tally

theorem natAbs_mul_eq {scale : Int8} {n : PlainNumeral} {u : Int}
    (h : u * (10 ^ placesDown scale : Nat) = n.coefficient * (10 ^ placesUp scale n.fraction : Nat)) :
    u.natAbs * 10 ^ placesDown scale = Numeral.value n.digits * 10 ^ placesUp scale n.fraction := by
  have hAbs := congrArg Int.natAbs h
  rwa [Int.natAbs_mul, Int.natAbs_mul, Int.natAbs_natCast, Int.natAbs_natCast,
    PlainNumeral.natAbs_coefficient] at hAbs

theorem natAbs_lt_of_readable {precision : UInt8} {scale : Int8} {n : PlainNumeral} {u : Int}
    (hn : Readable precision scale n)
    (h : u * (10 ^ placesDown scale : Nat) = n.coefficient * (10 ^ placesUp scale n.fraction : Nat)) :
    u.natAbs < 10 ^ precision.toNat := by
  have hPlaces : n.fraction.length + placesUp scale n.fraction = scale.toInt.toNat := by
    have hFraction := hn.places
    rw [placesUp]
    omega
  have hLarge : u.natAbs * 10 ^ placesDown scale <
      10 ^ ((Numeral.stripZeros n.whole).length + scale.toInt.toNat) := by
    rw [natAbs_mul_eq h, ← hPlaces, ← Nat.add_assoc, pow_add]
    exact Nat.mul_lt_mul_of_pos_right (PlainNumeral.value_digits_lt hn.wellFormed)
      (Nat.pow_pos (by decide))
  exact Nat.lt_of_lt_of_le (lt_pow_sub hLarge) (Nat.pow_le_pow_right (by decide) hn.digits)

theorem scaled_eq_iff {scale : Int8} {n : PlainNumeral} (h : n.fraction.length ≤ scale.toInt.toNat)
    (u : Int) :
    u * (10 ^ placesDown scale : Nat) = n.coefficient * (10 ^ placesUp scale n.fraction : Nat) ↔
      n.number = u * 10 ^ (-scale.toInt) := by
  rw [PlainNumeral.number_eq_iff h, placesDown, placesUp, Nat.cast_pow, Nat.cast_pow]
  rfl

theorem parse_eq_ok_of_read {precision : UInt8} {scale : Int8} {text : List Char} {v : Int128}
    (h : read precision scale text = some v) : parse precision scale text = .ok v := by
  rw [read] at h
  cases hParse : parse precision scale text with
  | error stop => rw [hParse] at h; cases h
  | ok u => rw [hParse] at h; cases h; rfl

/-- No step of a reading leaves its width unchecked. What is read is the number of a plain numeral
whose fraction the scale has places for, and it fits in the precision, so that a column of a valid
type takes it as a value. -/
theorem read_exact (precision : UInt8) (scale : Int8) (text : String) :
    parse precision scale text.toList ≠ .error .overflow ∧
      ∀ v, read precision scale text.toList = some v →
        (∃ n : PlainNumeral, n.SpelledBy text.toList ∧ n.fraction.length ≤ scale.toInt.toNat ∧
          (v.toInt : ℚ) * 10 ^ (-scale.toInt) = n.number) ∧
        v.toInt.natAbs < 10 ^ precision.toNat ∧
        (checkPrecision precision = .ok () →
          make precision scale v = .ok ⟨precision, scale, v⟩ ∧
            Value.read (.decimal precision scale) text = .ok (.decimal ⟨precision, scale, v⟩)) := by
  have hDecides := decides_parse precision scale text.toList
  refine ⟨hDecides.ne_overflow, fun v hv => ?_⟩
  obtain ⟨hReadable, hScaled⟩ := hDecides.of_eq_ok (parse_eq_ok_of_read hv)
  have hSize := natAbs_lt_of_readable hReadable hScaled
  refine ⟨⟨_, (PlainNumeral.spelledBy_iff _ _).mpr ⟨rfl, hReadable.wellFormed⟩, hReadable.places, ?_⟩,
    hSize, fun hPrecision => ?_⟩
  · exact ((scaled_eq_iff hReadable.places v.toInt).mp hScaled).symm
  · rw [checkPrecision_eq_ok_iff] at hPrecision
    have hMake := (make_eq_ok_iff precision scale v _).mpr ⟨hPrecision, hSize, rfl⟩
    exact ⟨hMake, Value.read_decimal_eq_ok_iff.mpr ⟨v, hv, hMake, rfl⟩⟩

theorem read_exact_hundreds :
    read 3 (-2) "-0012300".toList = some ⟨.ofInt 128 (-123)⟩ ∧
      (∃ n : PlainNumeral, n.SpelledBy "-0012300".toList ∧ n.fraction.length ≤ 0 ∧
        ((⟨.ofInt 128 (-123)⟩ : Int128).toInt : ℚ) * 10 ^ (-(-2 : Int8).toInt) = n.number) ∧
      Value.read (.decimal 3 (-2)) "-0012300" = .ok (.decimal ⟨3, -2, ⟨.ofInt 128 (-123)⟩⟩) := by
  have hRead : read 3 (-2) "-0012300".toList = some ⟨.ofInt 128 (-123)⟩ := by rfl
  obtain ⟨hNumber, -, hAdmitted⟩ := (read_exact 3 (-2) "-0012300").2 _ hRead
  exact ⟨hRead, hNumber, (hAdmitted (by rfl)).2⟩

end Decimal

end Bucketing
