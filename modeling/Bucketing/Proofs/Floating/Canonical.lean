import Bucketing.Proofs.Floating.Widening

/-! # Canonical bits tell numbers apart by value

The value of a finite number determines it up to the sign of a zero. So two doubles have the same
canonical bits exactly if they are equal by value or both a NaN, and since a widened number keeps its
value, the same holds of numbers of single precision and of one of each precision.
-/
namespace Bucketing.Floating

variable {F G : Format}

/-- Equality by value, also of numbers of two formats. The zeros are equal, and a NaN equals nothing. -/
structure IsEqual (x : Floating F) (y : Floating G) : Prop where
  isNaN : x.isNaN = false ∧ y.isNaN = false
  isInfinite : x.isInfinite = y.isInfinite
  negative : x.isInfinite = true → x.negative = y.negative
  number : x.isInfinite = false → x.number = y.number

/-- Equal, or both a NaN. -/
def Alike (x : Floating F) (y : Floating G) : Prop := IsEqual x y ∨ (x.isNaN = true ∧ y.isNaN = true)

theorem units_zero (F : Format) : F.units 0 = 0 := F.units_of_lt F.fractionSize_pos

theorem number_eq_zero_iff (x : Floating F) : x.number = 0 ↔ x.magnitude = 0 := by
  rw [← abs_eq_zero, abs_number, div_eq_zero_iff, or_iff_left (unit_ne_zero F), Nat.cast_eq_zero]
  exact F.units_strictMono.injective.eq_iff' (units_zero F)

/-- The numbers of two signs differ, unless both are zero. -/
theorem number_eq_iff (x y : Floating F) :
    x.number = y.number ↔
      x.magnitude = y.magnitude ∧ (x.negative = y.negative ∨ x.magnitude = 0) := by
  constructor
  · intro h
    have hMagnitude := magnitude_eq_of_abs_number (congrArg abs h)
    refine ⟨hMagnitude, ?_⟩
    by_cases hSign : x.negative = y.negative
    · exact .inl hSign
    · have hNeg : x.number = -y.number := by
        rw [number, number, hMagnitude, Bool.eq_not.mpr hSign]
        cases y.negative <;> simp
      rw [← h, self_eq_neg] at hNeg
      exact .inr ((number_eq_zero_iff x).mp hNeg)
  · rintro ⟨hMagnitude, hSign | hZero⟩
    · rw [number, number, hMagnitude, hSign]
    · rw [(number_eq_zero_iff x).mpr hZero, (number_eq_zero_iff y).mpr (hMagnitude ▸ hZero)]

theorem equal_eq_true_iff_isEqual (hInfinity : 0 < F.infinity) (x y : Floating F) :
    x.equal y = true ↔ IsEqual x y := by
  rw [equal_eq_true_iff, compare?_eq_some_eq_iff]
  constructor
  · rintro ⟨hx, hy, hMagnitude, hSign⟩
    refine ⟨⟨hx, hy⟩, ?_, ?_, fun _ => (number_eq_iff x y).mpr ⟨hMagnitude, hSign⟩⟩
    · rw [isInfinite, isInfinite, hMagnitude]
    · intro hInfinite
      have hNonzero : x.magnitude ≠ 0 := by
        rw [beq_iff_eq.mp hInfinite]
        exact hInfinity.ne'
      exact hSign.resolve_right hNonzero
  · rintro ⟨⟨hx, hy⟩, hInfinite, hNegative, hNumber⟩
    refine ⟨hx, hy, ?_⟩
    cases h : x.isInfinite with
    | true =>
      have hxMagnitude : x.magnitude = F.infinity := beq_iff_eq.mp h
      have hyMagnitude : y.magnitude = F.infinity := beq_iff_eq.mp (hInfinite.symm.trans h)
      exact ⟨hxMagnitude.trans hyMagnitude.symm, .inl (hNegative h)⟩
    | false => exact (number_eq_iff x y).mp (hNumber h)

theorem isEqual_comm {x : Floating F} {y : Floating G} : IsEqual x y ↔ IsEqual y x := by
  have hSwap {F G : Format} {x : Floating F} {y : Floating G} (h : IsEqual x y) : IsEqual y x :=
    ⟨h.isNaN.symm, h.isInfinite.symm, fun hy => (h.negative (h.isInfinite.trans hy)).symm,
      fun hy => (h.number (h.isInfinite.trans hy)).symm⟩
  exact ⟨hSwap, hSwap⟩

theorem isEqual_widen_left {x : Floating .single} {y : Floating G} :
    IsEqual x.widen y ↔ IsEqual x y := by
  have hWiden := isWidening_widen x
  constructor
  · rintro ⟨⟨hx, hy⟩, hInfinite, hNegative, hNumber⟩
    rw [hWiden.isNaN] at hx
    rw [hWiden.isInfinite] at hInfinite hNegative hNumber
    refine ⟨⟨hx, hy⟩, hInfinite, hNegative, ?_⟩
    intro h
    rw [← hWiden.number hx h, hNumber h]
  · rintro ⟨⟨hx, hy⟩, hInfinite, hNegative, hNumber⟩
    refine ⟨⟨hWiden.isNaN.trans hx, hy⟩, hWiden.isInfinite.trans hInfinite, ?_, ?_⟩
    · rw [hWiden.isInfinite]
      exact hNegative
    · rw [hWiden.isInfinite]
      intro h
      rw [hWiden.number hx h, hNumber h]

theorem alike_comm {x : Floating F} {y : Floating G} : Alike x y ↔ Alike y x :=
  or_congr isEqual_comm and_comm

theorem alike_widen_left {x : Floating .single} {y : Floating G} : Alike x.widen y ↔ Alike x y := by
  rw [Alike, Alike, isEqual_widen_left, isNaN_widen]

section Double

variable {x y : Floating .double}

theorem canonicalBits_of_not_isNaN (h : x.isNaN = false) :
    x.canonicalBits = if x.magnitude = 0 then 0 else x.bits := by
  rw [canonicalBits, h]
  rfl

/-- The bits of the NaN that stands for all are those of no number. -/
theorem canonicalBits_ne_of_isNaN (hx : x.isNaN = true) (hy : y.isNaN = false) :
    x.canonicalBits ≠ y.canonicalBits := by
  have hInfinity : Format.double.infinity = 9218868437227405312 := infinity_double
  have hSize : Format.double.size = 9223372036854775808 := by decide
  have hNaN : (nan .double false).bits = 9221120237041090560 := by decide
  rw [canonicalBits_of_isNaN hx, canonicalBits_of_not_isNaN hy, hNaN]
  rw [isNaN, decide_eq_false_iff_not] at hy
  unfold bits
  split
  · decide
  · split <;> omega

theorem equal_of_canonicalBits_eq (hx : x.isNaN = false) (hy : y.isNaN = false)
    (h : x.canonicalBits = y.canonicalBits) : x.equal y = true := by
  rw [equal_eq_true_iff, compare?_eq_some_eq_iff]
  rw [canonicalBits_of_not_isNaN hx, canonicalBits_of_not_isNaN hy] at h
  refine ⟨hx, hy, ?_⟩
  -- the sign is the bit above the magnitude, so that the bits of a number other than zero tell both
  have hxLt := x.magnitude_lt
  have hyLt := y.magnitude_lt
  unfold bits at h
  cases hxSign : x.negative <;> cases hySign : y.negative <;> simp only [hxSign, hySign] at h ⊢ <;>
    grind

theorem canonicalBits_eq_iff : x.canonicalBits = y.canonicalBits ↔ Alike x y := by
  rw [Alike, ← equal_eq_true_iff_isEqual (by decide)]
  constructor
  · intro h
    cases hx : x.isNaN with
    | true =>
      cases hy : y.isNaN with
      | true => exact .inr ⟨rfl, rfl⟩
      | false => exact absurd h (canonicalBits_ne_of_isNaN hx hy)
    | false =>
      cases hy : y.isNaN with
      | true => exact absurd h.symm (canonicalBits_ne_of_isNaN hy hx)
      | false => exact .inl (equal_of_canonicalBits_eq hx hy h)
  · rintro (hEqual | ⟨hx, hy⟩)
    · exact canonicalBits_eq_of_compare?_eq ((equal_eq_true_iff x y).mp hEqual)
    · rw [canonicalBits_of_isNaN hx, canonicalBits_of_isNaN hy]

end Double

def ofUInt32 (w : UInt32) : Floating .single := ofBits .single w.toNat

def ofUInt64 (w : UInt64) : Floating .double := ofBits .double w.toNat

theorem bits_ofBits {n : Nat} (h : n < 2 * F.size) : (ofBits F n).bits = n := by
  have hDiv := Nat.div_add_mod n F.size
  have hSign : n / F.size < 2 := Nat.div_lt_of_lt_mul (Nat.mul_comm 2 F.size ▸ h)
  rcases Nat.le_one_iff_eq_zero_or_eq_one.mp (Nat.lt_succ_iff.mp hSign) with hSign | hSign
  · simpa [bits, ofBits, hSign] using hDiv
  · simpa [bits, ofBits, hSign] using hDiv

theorem magnitude_ofUInt64_eq_zero_iff (w : UInt64) :
    (ofUInt64 w).magnitude = 0 ↔ w = 0 ∨ w = 0x8000000000000000 := by
  have hSize : Format.double.size = 9223372036854775808 := by decide
  have hLt : w.toNat < 18446744073709551616 := w.toNat_lt
  rw [← UInt64.toNat_inj, ← UInt64.toNat_inj]
  change w.toNat % Format.double.size = 0 ↔ w.toNat = 0 ∨ w.toNat = 9223372036854775808
  rw [hSize]
  omega

/-- Only the patterns of NaN and of the negative zero are replaced. -/
theorem canonicalBits_ofUInt64 (w : UInt64) :
    (ofUInt64 w).canonicalBits =
      if (ofUInt64 w).isNaN then 0x7ff8000000000000
      else if w = 0x8000000000000000 then 0 else w.toNat := by
  have hBits : (ofUInt64 w).bits = w.toNat := bits_ofBits w.toNat_lt
  have hNaN : (nan .double false).bits = 0x7ff8000000000000 := by decide
  rw [canonicalBits, hNaN, hBits]
  simp only [magnitude_ofUInt64_eq_zero_iff]
  split
  · rfl
  · by_cases hZero : w = 0
    · rw [hZero]
      rfl
    · simp only [hZero, false_or]

/-- The canonical bits of two patterns agree exactly if the numbers are equal by value or both a NaN.
Numbers of single precision are widened first, which keeps their value, so that the same holds of
them and of numbers of both precisions. Only NaN and the negative zero are given other bits. -/
theorem canonicalBits_eq_iff_alike :
    (∀ v w : UInt64, (ofUInt64 v).canonicalBits = (ofUInt64 w).canonicalBits ↔
        Alike (ofUInt64 v) (ofUInt64 w)) ∧
      (∀ v w : UInt32, (ofUInt32 v).widen.canonicalBits = (ofUInt32 w).widen.canonicalBits ↔
        Alike (ofUInt32 v) (ofUInt32 w)) ∧
      (∀ (v : UInt32) (w : UInt64), (ofUInt32 v).widen.canonicalBits = (ofUInt64 w).canonicalBits ↔
        Alike (ofUInt32 v) (ofUInt64 w)) ∧
      (∀ v : UInt32, IsWidening (ofUInt32 v) (ofUInt32 v).widen) ∧
      (∀ w : UInt64, (ofUInt64 w).canonicalBits =
        if (ofUInt64 w).isNaN then 0x7ff8000000000000
        else if w = 0x8000000000000000 then 0 else w.toNat) := by
  refine ⟨fun v w => canonicalBits_eq_iff, ?_, ?_, fun v => isWidening_widen (ofUInt32 v),
    canonicalBits_ofUInt64⟩
  · intro v w
    rw [canonicalBits_eq_iff, alike_widen_left, alike_comm, alike_widen_left, alike_comm]
  · intro v w
    rw [canonicalBits_eq_iff, alike_widen_left]

/-- The least subnormal number of single precision is a normal one of double precision. -/
example : (ofUInt32 1).widen.canonicalBits = 0x36a0000000000000 := rfl

end Bucketing.Floating
