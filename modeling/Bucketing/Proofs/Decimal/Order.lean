import Bucketing.Proofs.Int128
import Bucketing.Proofs.Outcome
import Bucketing.Value.Comparison
import Mathlib.Algebra.Order.Field.Rat
import Mathlib.Order.Compare
import Mathlib.Tactic.NormNum

/-! # Decimals in the order of their numbers

A decimal that is brought to a greater scale stands for the same number. So decimals of any scales
are in the order of their numbers, and are refused exactly where the one of the smaller scale, or the
power of ten that it is multiplied by, leaves 128 bits.
-/
namespace Bucketing.Decimal

/-- The number that a decimal stands for, whatever its precision. -/
def number (d : Decimal) : ℚ := d.unscaled.toInt * 10 ^ (-d.scale.toInt)

theorem toInt_of_rescale {d : Decimal} {scale : Int8} {n : Int128} (h : d.rescale scale = .ok n) :
    n.toInt = d.unscaled.toInt * 10 ^ (scale.toInt - d.scale.toInt).toNat := by
  dsimp only [rescale] at h
  split at h
  · next m hm =>
    cases h
    obtain ⟨factor, hFactor, hMul⟩ := Option.bind_eq_some_iff.mp hm
    rw [Int128.pow10?, Int128.ofInt?_eq_some_iff] at hFactor
    rw [Int128.mul?, Int128.ofInt?_eq_some_iff, hFactor, Nat.pow_eq] at hMul
    rw [hMul, Nat.cast_pow, Nat.cast_ofNat]
  · cases h

theorem number_of_rescale {d : Decimal} {scale : Int8} {n : Int128} (hScale : d.scale ≤ scale)
    (h : d.rescale scale = .ok n) : d.number = n.toInt * 10 ^ (-scale.toInt) := by
  have hPlaces : ((scale.toInt - d.scale.toInt).toNat : Int) = scale.toInt - d.scale.toInt :=
    Int.toNat_of_nonneg (Int.sub_nonneg.mpr (Int8.le_iff_toInt_le.mp hScale))
  rw [number, toInt_of_rescale h, Int.cast_mul, Int.cast_pow, Int.cast_ofNat, mul_assoc,
    ← zpow_natCast, hPlaces, ← zpow_add₀ (by norm_num)]
  congr 2
  omega

theorem compare_mul_zpow (m n e : Int) :
    compare ((m : ℚ) * 10 ^ e) ((n : ℚ) * 10 ^ e) = compare m n := by
  have hPos : (0 : ℚ) < 10 ^ e := zpow_pos (by norm_num) e
  rcases Int.lt_trichotomy m n with h | rfl | h
  · rw [compare_lt_iff_lt.mpr h, compare_lt_iff_lt]
    exact mul_lt_mul_of_pos_right (Int.cast_lt.mpr h) hPos
  · rw [Std.ReflOrd.compare_self, Std.ReflOrd.compare_self]
  · rw [compare_gt_iff_gt.mpr h, compare_gt_iff_gt]
    exact mul_lt_mul_of_pos_right (Int.cast_lt.mpr h) hPos

theorem compare_number_of_tryCompare {a b : Decimal} {o : Ordering} (h : a.tryCompare b = .ok o) :
    o = compare a.number b.number := by
  rw [tryCompare] at h
  split at h
  · next hScale =>
    cases h
    rw [number, number, hScale, compare_mul_zpow]
    rfl
  · split at h
    · next hLt =>
      obtain ⟨n, hn, h⟩ := Outcome.bind_eq_ok_iff.mp h
      cases h
      rw [number_of_rescale (Int8.le_of_lt hLt) hn, number, compare_mul_zpow]
      rfl
    · next hNe hNotLt =>
      obtain ⟨n, hn, h⟩ := Outcome.bind_eq_ok_iff.mp h
      cases h
      rw [number_of_rescale (Int8.not_lt.mp hNotLt) hn, number, compare_mul_zpow]
      rfl

/-- The one of the smaller scale, which is rescaled. -/
def coarser (a b : Decimal) : Decimal := if a.scale < b.scale then a else b

def finer (a b : Decimal) : Decimal := if a.scale < b.scale then b else a

/-- How many zeros the number of the smaller scale gets. -/
def gap (a b : Decimal) : Nat := (a.scale.toInt - b.scale.toInt).natAbs

/-- One scale can be reached within 128 bits. -/
def Alignable (a b : Decimal) : Prop :=
  Int128.InRange (10 ^ gap a b) ∧ Int128.InRange ((coarser a b).unscaled.toInt * 10 ^ gap a b)

instance (a b : Decimal) : Decidable (Alignable a b) := inferInstanceAs (Decidable (_ ∧ _))

theorem exists_rescale_iff (d : Decimal) (scale : Int8) {places : Nat}
    (hPlaces : (scale.toInt - d.scale.toInt).toNat = places) :
    (∃ n, d.rescale scale = .ok n) ↔
      Int128.InRange (10 ^ places) ∧ Int128.InRange (d.unscaled.toInt * 10 ^ places) := by
  have hPower : Int128.pow10? places = Int128.ofInt? (10 ^ places) := by
    rw [Int128.pow10?, Nat.pow_eq, Nat.cast_pow, Nat.cast_ofNat]
  dsimp only [rescale]
  rw [hPlaces, hPower, Option.bind_eq_bind]
  constructor
  · rintro ⟨n, h⟩
    split at h
    · next m hm =>
      obtain ⟨factor, hFactor, hProduct⟩ := Option.bind_eq_some_iff.mp hm
      rw [Int128.mul?, (Int128.ofInt?_eq_some_iff _ _).mp hFactor] at hProduct
      exact ⟨.of_ofInt? hFactor, .of_ofInt? hProduct⟩
    · cases h
  · rintro ⟨hFactor, hProduct⟩
    obtain ⟨factor, hFactor, hFactorInt⟩ := Int128.exists_ofInt?_eq_some hFactor
    obtain ⟨n, hn, -⟩ := Int128.exists_ofInt?_eq_some hProduct
    refine ⟨n, ?_⟩
    rw [hFactor, Option.bind_some, Int128.mul?, hFactorInt, hn]

theorem rescale_eq_error {d : Decimal} {scale : Int8} {fault : Fault}
    (h : d.rescale scale = .error fault) : fault = .rescaleOverflow d scale := by
  dsimp only [rescale] at h
  split at h
  · cases h
  · exact (Except.error.inj h).symm

section

variable {a b : Decimal}

theorem tryCompare_of_scale_eq (h : a.scale = b.scale) :
    a.tryCompare b = .ok (compare a.unscaled b.unscaled) := by
  rw [tryCompare, if_pos h]

theorem exists_tryCompare_eq_map (h : a.scale ≠ b.scale) :
    ∃ f, a.tryCompare b = f <$> (coarser a b).rescale (finer a b).scale ∧
      ((finer a b).scale.toInt - (coarser a b).scale.toInt).toNat = gap a b := by
  rw [tryCompare, if_neg h, coarser, finer, gap]
  by_cases hLt : a.scale < b.scale
  · rw [if_pos hLt, if_pos hLt, if_pos hLt]
    refine ⟨(compare · b.unscaled), rfl, ?_⟩
    have hToInt := Int8.lt_iff_toInt_lt.mp hLt
    omega
  · rw [if_neg hLt, if_neg hLt, if_neg hLt]
    refine ⟨(compare a.unscaled ·), rfl, ?_⟩
    have hToInt := Int8.le_iff_toInt_le.mp (Int8.not_lt.mp hLt)
    omega

theorem alignable_of_scale_eq (h : a.scale = b.scale) : Alignable a b := by
  rw [Alignable, gap, h, Int.sub_self, Int.natAbs_zero, pow_zero, mul_one]
  exact ⟨by decide, (coarser a b).unscaled.inRange_toInt⟩

theorem exists_tryCompare_iff (a b : Decimal) : (∃ o, a.tryCompare b = .ok o) ↔ Alignable a b := by
  by_cases hScale : a.scale = b.scale
  · exact iff_of_true ⟨_, tryCompare_of_scale_eq hScale⟩ (alignable_of_scale_eq hScale)
  · obtain ⟨f, hMap, hPlaces⟩ := exists_tryCompare_eq_map hScale
    rw [hMap, Alignable, ← exists_rescale_iff _ _ hPlaces]
    simp [Outcome.map_eq_ok_iff]

theorem eq_of_tryCompare_eq_error {fault : Fault} (h : a.tryCompare b = .error fault) :
    fault = .rescaleOverflow (coarser a b) (finer a b).scale := by
  by_cases hScale : a.scale = b.scale
  · rw [tryCompare_of_scale_eq hScale] at h
    cases h
  · obtain ⟨f, hMap, -⟩ := exists_tryCompare_eq_map hScale
    rw [hMap, Outcome.map_eq_error_iff] at h
    exact rescale_eq_error h

end

/-- Decimals are compared as the numbers that they stand for, unless one scale is out of reach. -/
theorem tryCompare_eq (a b : Decimal) :
    a.tryCompare b =
      if Alignable a b then .ok (compare a.number b.number)
      else .error (.rescaleOverflow (coarser a b) (finer a b).scale) := by
  cases h : a.tryCompare b with
  | ok o => rw [if_pos ((exists_tryCompare_iff a b).mp ⟨o, h⟩), compare_number_of_tryCompare h]
  | error fault =>
    have hNot : ¬Alignable a b := by
      rw [← exists_tryCompare_iff, h]
      rintro ⟨o, ⟨⟩⟩
    rw [if_neg hNot, eq_of_tryCompare_eq_error h]

/-- The power of ten is asked for even where zeros appended to a zero would do no harm. -/
example :
    tryCompare ⟨1, 0, ⟨0⟩⟩ ⟨1, 38, ⟨0⟩⟩ = .ok .eq ∧
      tryCompare ⟨1, 0, ⟨0⟩⟩ ⟨1, 39, ⟨0⟩⟩ = .error (.rescaleOverflow ⟨1, 0, ⟨0⟩⟩ 39) :=
  ⟨rfl, rfl⟩

end Bucketing.Decimal
