import Bucketing.Floating.Basic

/-! # Canonical bits of equal numbers

Equality by value is equality of magnitude and sign, where zero has either sign. Widening keeps it,
and both kinds of numbers, equal ones and NaN, have the same canonical bits.
-/
namespace Bucketing

theorem widenMagnitude_zero : widenMagnitude 0 = 0 := rfl

theorem infinity_single : Format.single.infinity = 2139095040 := rfl

theorem infinity_double : Format.double.infinity = 9218868437227405312 := rfl

theorem widenMagnitude_lt_infinity {m : Nat} (h : m < Format.single.infinity) :
    widenMagnitude m < Format.double.infinity := by
  rw [infinity_single] at h
  rw [infinity_double]
  simp only [widenMagnitude, Nat.pow_eq, Nat.reducePow]
  split
  · omega
  · next hZero =>
    split
    · next hSub =>
      have hLog : m.log2 < 23 := (Nat.log2_lt hZero).mpr hSub
      have hShift := mul_pow_log2_lt hZero hSub
      rw [Nat.pow_eq] at hShift
      omega
    · omega

/-- Infinity stays infinity, and the payload of a NaN gets zeros behind it. -/
theorem widenMagnitude_of_infinity_le {m : Nat} (h : Format.single.infinity ≤ m) :
    widenMagnitude m = Format.double.infinity + (m - Format.single.infinity) * Nat.pow 2 29 := by
  rw [infinity_single] at h
  rw [infinity_single, infinity_double, widenMagnitude, if_neg (by omega),
    if_neg (Nat.not_lt.mpr (Nat.le_trans (by decide) h)), if_neg (Nat.not_lt.mpr h), Nat.add_comm]

theorem infinity_lt_widenMagnitude_iff (m : Nat) :
    Format.double.infinity < widenMagnitude m ↔ Format.single.infinity < m := by
  rcases Nat.lt_or_ge m Format.single.infinity with h | h
  · have hWiden := widenMagnitude_lt_infinity h
    omega
  · rw [widenMagnitude_of_infinity_le h, Nat.pow_eq]
    omega

theorem widenMagnitude_eq_infinity_iff (m : Nat) :
    widenMagnitude m = Format.double.infinity ↔ m = Format.single.infinity := by
  rcases Nat.lt_or_ge m Format.single.infinity with h | h
  · have hWiden := widenMagnitude_lt_infinity h
    omega
  · rw [widenMagnitude_of_infinity_le h, Nat.pow_eq]
    omega

namespace Floating

variable {F : Format}

theorem rank_eq_rank_iff (x y : Floating F) :
    x.rank = y.rank ↔ x.magnitude = y.magnitude ∧ (x.negative = y.negative ∨ x.magnitude = 0) := by
  unfold rank
  cases x.negative <;> cases y.negative <;> simp <;> omega

theorem compare?_eq_some_eq_iff (x y : Floating F) :
    x.compare? y = some .eq ↔ x.isNaN = false ∧ y.isNaN = false ∧ x.magnitude = y.magnitude ∧
      (x.negative = y.negative ∨ x.magnitude = 0) := by
  rw [compare?, ← rank_eq_rank_iff]
  cases x.isNaN <;> cases y.isNaN <;> simp

theorem compare?_eq_none_iff (x y : Floating F) :
    x.compare? y = none ↔ x.isNaN = true ∨ y.isNaN = true := by
  rw [compare?]
  cases x.isNaN <;> cases y.isNaN <;> simp

theorem equal_eq_true_iff (x y : Floating F) : x.equal y = true ↔ x.compare? y = some .eq := by
  rw [equal, compare?]
  cases x.isNaN <;> cases y.isNaN <;> simp

theorem canonicalBits_of_isNaN {x : Floating F} (h : x.isNaN = true) :
    x.canonicalBits = (nan F false).bits := by
  rw [canonicalBits, if_pos h]

theorem canonicalBits_eq_of_compare?_eq {x y : Floating F} (h : x.compare? y = some .eq) :
    x.canonicalBits = y.canonicalBits := by
  obtain ⟨hx, hy, hMagnitude, hSign⟩ := (compare?_eq_some_eq_iff x y).mp h
  simp only [canonicalBits, hx, hy, Bool.false_eq_true, if_false, ← hMagnitude]
  split
  · rfl
  · next hZero => rw [bits, bits, hMagnitude, hSign.resolve_right hZero]

theorem isNaN_widen (x : Floating .single) : x.widen.isNaN = x.isNaN := by
  rw [isNaN, isNaN, decide_eq_decide]
  exact infinity_lt_widenMagnitude_iff x.magnitude

theorem widen_compare?_widen_eq {x y : Floating .single} (h : x.compare? y = some .eq) :
    x.widen.compare? y.widen = some .eq := by
  rw [compare?_eq_some_eq_iff] at h ⊢
  obtain ⟨hx, hy, hMagnitude, hSign⟩ := h
  refine ⟨(isNaN_widen x).trans hx, (isNaN_widen y).trans hy, congrArg widenMagnitude hMagnitude, ?_⟩
  rcases hSign with hSign | hZero
  · exact .inl hSign
  · right
    change widenMagnitude x.magnitude = 0
    rw [hZero, widenMagnitude_zero]

end Floating

end Bucketing
