import Bucketing.Proofs.Floating.Equality
import Bucketing.Proofs.Floating.Rounding
import Mathlib.Algebra.Field.Rat
import Mathlib.Algebra.Order.Field.Basic
import Mathlib.Algebra.Order.Ring.Abs
import Mathlib.Tactic.NormNum

/-! # Exact widening

A finite number keeps its value when it is widened, subnormal or not: the units of double precision
are smaller by a fixed power of two, and its magnitude has that many more of them. So what is widened
is determined by its value, up to the bits of a NaN.
-/
namespace Bucketing

theorem fractionSize_double : Format.double.fractionSize = 2 ^ 52 := rfl

theorem unitExponent_double : Format.double.unitExponent = Format.single.unitExponent + 925 := rfl

theorem two_pow_mul_two_pow {a b c : Nat} (h : a + b = c) : 2 ^ a * 2 ^ b = 2 ^ c := by
  rw [← Nat.pow_add, h]

/-- The leading one of a subnormal number becomes the one that a normal number does not store. -/
theorem units_widenMagnitude_subnormal {m : Nat} (hZero : m ≠ 0) (hSub : m < 2 ^ 23) :
    Format.double.units (widenMagnitude m) = m * 2 ^ 925 := by
  have hLog : m.log2 < 23 := (Nat.log2_lt hZero).mpr hSub
  have hLeading : 2 ^ 52 ≤ m * 2 ^ (52 - m.log2) := by
    calc 2 ^ 52 = 2 ^ m.log2 * 2 ^ (52 - m.log2) := (two_pow_mul_two_pow (by omega)).symm
      _ ≤ m * 2 ^ (52 - m.log2) := Nat.mul_le_mul_right _ (Nat.log2_self_le hZero)
  obtain ⟨r, hr⟩ := Nat.exists_eq_add_of_le hLeading
  have hFraction : r < 2 ^ 52 := by
    have hShift := mul_pow_log2_lt hZero hSub
    rw [Nat.pow_eq, hr] at hShift
    omega
  have hWiden : widenMagnitude m = 2 ^ 52 * (m.log2 + 873 + 1) + r := by
    simp only [widenMagnitude, Nat.pow_eq]
    rw [if_neg hZero, if_pos hSub, hr]
    omega
  have hPower : 2 ^ (52 - m.log2) * 2 ^ (m.log2 + 873) = 2 ^ 925 := two_pow_mul_two_pow (by omega)
  have hUnits := Format.double.units_normal (m.log2 + 873) r hFraction
  rw [fractionSize_double, ← hWiden, ← hr, Nat.mul_assoc, hPower] at hUnits
  exact hUnits

theorem units_widenMagnitude_normal {q r : Nat} (hr : r < 2 ^ 23)
    (hFinite : 2 ^ 23 * (q + 1) + r < Format.single.infinity) :
    Format.double.units (widenMagnitude (2 ^ 23 * (q + 1) + r)) = (2 ^ 23 + r) * 2 ^ q * 2 ^ 925 := by
  have hWiden : widenMagnitude (2 ^ 23 * (q + 1) + r) = 2 ^ 52 * (q + 896 + 1) + r * 2 ^ 29 := by
    rw [widenMagnitude, if_neg (by omega), if_neg (by simp only [Nat.pow_eq]; omega),
      if_pos (by simpa only [infinity_single] using hFinite)]
    simp only [Nat.pow_eq]
    omega
  have hUnits := Format.double.units_normal (q + 896) (r * 2 ^ 29)
    (by rw [fractionSize_double]; omega)
  have hFraction : 2 ^ 52 + r * 2 ^ 29 = (2 ^ 23 + r) * 2 ^ 29 := by omega
  have hPower : 2 ^ 29 * 2 ^ (q + 896) = 2 ^ q * 2 ^ 925 := by
    rw [two_pow_mul_two_pow rfl, two_pow_mul_two_pow (c := 29 + (q + 896)) (by omega)]
  rw [fractionSize_double, ← hWiden, hFraction, Nat.mul_assoc, hPower, ← Nat.mul_assoc] at hUnits
  exact hUnits

theorem units_widenMagnitude {m : Nat} (h : m < Format.single.infinity) :
    Format.double.units (widenMagnitude m) = Format.single.units m * 2 ^ 925 := by
  by_cases hSub : m < 2 ^ 23
  · rw [Format.single.units_of_lt hSub]
    by_cases hZero : m = 0
    · rw [hZero, widenMagnitude_zero, Nat.zero_mul]
      rfl
    · exact units_widenMagnitude_subnormal hZero hSub
  · obtain ⟨q, r, hr, rfl⟩ : ∃ q r, r < 2 ^ 23 ∧ m = 2 ^ 23 * (q + 1) + r :=
      ⟨m / 2 ^ 23 - 1, m % 2 ^ 23, Nat.mod_lt _ (by decide), by omega⟩
    rw [units_widenMagnitude_normal hr h]
    exact congrArg (· * 2 ^ 925) (Format.single.units_normal q r hr).symm

namespace Floating

variable {F : Format}

/-- The value of a finite number. -/
def number (x : Floating F) : ℚ :=
  (if x.negative then -1 else 1) * (F.units x.magnitude / 2 ^ F.unitExponent)

/-- A NaN for a NaN, whatever its bits; otherwise the sign and the value are kept. -/
structure IsWidening (x : Floating .single) (y : Floating .double) : Prop where
  isNaN : y.isNaN = x.isNaN
  isInfinite : y.isInfinite = x.isInfinite
  negative : x.isNaN = false → y.negative = x.negative
  number : x.isNaN = false → x.isInfinite = false → y.number = x.number

theorem magnitude_lt_infinity {x : Floating F} (hNaN : x.isNaN = false) (h : x.isInfinite = false) :
    x.magnitude < F.infinity := by
  rw [isNaN, decide_eq_false_iff_not] at hNaN
  rw [isInfinite, beq_eq_false_iff_ne] at h
  omega

theorem isInfinite_widen (x : Floating .single) : x.widen.isInfinite = x.isInfinite := by
  rw [isInfinite, isInfinite, Bool.eq_iff_iff, beq_iff_eq, beq_iff_eq]
  exact widenMagnitude_eq_infinity_iff x.magnitude

theorem number_widen {x : Floating .single} (hNaN : x.isNaN = false) (h : x.isInfinite = false) :
    x.widen.number = x.number := by
  have hUnits : Format.double.units x.widen.magnitude = Format.single.units x.magnitude * 2 ^ 925 :=
    units_widenMagnitude (magnitude_lt_infinity hNaN h)
  have hPower : (2 : ℚ) ^ 925 ≠ 0 := pow_ne_zero _ (by norm_num)
  rw [number, number, hUnits, unitExponent_double, pow_add, Nat.cast_mul, Nat.cast_pow, Nat.cast_ofNat,
    mul_div_mul_right _ _ hPower]
  rfl

theorem isWidening_widen (x : Floating .single) : IsWidening x x.widen where
  isNaN := isNaN_widen x
  isInfinite := isInfinite_widen x
  negative _ := rfl
  number := number_widen

theorem unit_ne_zero (F : Format) : (2 : ℚ) ^ F.unitExponent ≠ 0 := pow_ne_zero _ (by norm_num)

theorem abs_number (x : Floating F) : |x.number| = F.units x.magnitude / 2 ^ F.unitExponent := by
  have hSign : |if x.negative then (-1 : ℚ) else 1| = 1 := by split <;> simp
  rw [number, abs_mul, hSign, one_mul, abs_of_nonneg (by positivity)]

theorem magnitude_eq_of_abs_number {x y : Floating F} (h : |x.number| = |y.number|) :
    x.magnitude = y.magnitude := by
  rw [abs_number, abs_number, div_left_inj' (unit_ne_zero F), Nat.cast_inj] at h
  exact F.units_strictMono.injective h

theorem eq_of_number_eq {x y : Floating F} (hSign : x.negative = y.negative) (h : x.number = y.number) :
    x = y := by
  have hMagnitude := magnitude_eq_of_abs_number (congrArg abs h)
  obtain ⟨s, m, hm⟩ := x
  obtain ⟨t, n, hn⟩ := y
  obtain rfl : s = t := hSign
  obtain rfl : m = n := hMagnitude
  rfl

theorem eq_widen_of_isWidening {x : Floating .single} {y : Floating .double} (h : IsWidening x y)
    (hNaN : x.isNaN = false) : y = x.widen := by
  cases hInfinite : x.isInfinite with
  | true =>
    have hx := beq_iff_eq.mp ((isInfinite_widen x).trans hInfinite)
    have hy := beq_iff_eq.mp (h.isInfinite.trans hInfinite)
    obtain ⟨s, m, hm⟩ := y
    obtain rfl : s = x.negative := h.negative hNaN
    obtain rfl : m = x.widen.magnitude := hy.trans hx.symm
    rfl
  | false =>
    exact eq_of_number_eq (h.negative hNaN) ((h.number hNaN hInfinite).trans (number_widen hNaN hInfinite).symm)

theorem canonicalBits_of_isWidening {x : Floating .single} {y : Floating .double} (h : IsWidening x y) :
    y.canonicalBits = x.widen.canonicalBits := by
  cases hNaN : x.isNaN with
  | true =>
    rw [canonicalBits_of_isNaN (h.isNaN.trans hNaN), canonicalBits_of_isNaN ((isNaN_widen x).trans hNaN)]
  | false => rw [eq_widen_of_isWidening h hNaN]

end Floating

end Bucketing
