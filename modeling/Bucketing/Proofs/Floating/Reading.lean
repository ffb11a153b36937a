import Bucketing.Proofs.Floating.Text
import Bucketing.Proofs.Text.LeadingZeros

/-! # Numbers read back from their text

A decimal that rounds to a finite magnitude is read as that magnitude: bisection finds it, and a
decimal of extreme size either rounds to zero or to no finite magnitude. Since the text of a number
denotes a decimal that rounds to it, every number but a NaN comes back with its sign, and the text
tells the numbers apart.
-/
namespace Bucketing

/-- Bisection finds the least number with a property, where it lies in the range that is left. -/
theorem leastFrom_eq {holds : Nat → Bool} (hMono : ∀ m n, m < n → holds m = true → holds n = true)
    {m : Nat} (hHolds : holds m = true) (hLeast : ∀ k < m, holds k = false) {bits low : Nat}
    (hLow : low ≤ m) (hHigh : m < low + 2 ^ bits) : leastFrom holds bits low = m := by
  induction bits generalizing low with
  | zero =>
    obtain rfl : low = m := by omega
    rw [leastFrom, if_pos hHolds]
  | succ bits ih =>
    have hPos : 0 < 2 ^ bits := Nat.pow_pos (by decide)
    rw [Nat.pow_succ] at hHigh
    rw [leastFrom, Nat.pow_eq]
    -- the last number of the lower half has the property exactly if the least one is in that half
    split
    · next hMiddle =>
      have hNotAfter : ¬low + 2 ^ bits - 1 < m := by
        intro hAfter
        rw [hLeast _ hAfter] at hMiddle
        cases hMiddle
      exact ih hLow (by omega)
    · next hMiddle =>
      have hNotBefore : ¬m ≤ low + 2 ^ bits - 1 := by
        intro hBefore
        rcases Nat.lt_or_eq_of_le hBefore with hLess | hEq
        · exact hMiddle (hMono _ _ hLess hHolds)
        · exact hMiddle (hEq ▸ hHolds)
      exact ih (by omega) (by omega)

namespace Scientific

theorem numerator_mul_lt {s : Scientific} {n : Nat}
    (h : s.exponent + (Nat.toDigits 10 s.coefficient).length < -n) :
    s.numerator * 10 ^ (n + 1) < s.denominator := by
  have hCoefficient := Numeral.value_lt_pow_length (Numeral.isDigits_toDigits s.coefficient)
  rw [Numeral.value_toDigits] at hCoefficient
  generalize (Nat.toDigits 10 s.coefficient).length = length at h hCoefficient
  have hExponent : s.exponent.toNat = 0 := by omega
  calc s.numerator * 10 ^ (n + 1) = s.coefficient * 10 ^ (n + 1) := by
        rw [numerator, hExponent]
        simp
    _ < 10 ^ length * 10 ^ (n + 1) := Nat.mul_lt_mul_of_pos_right hCoefficient (Nat.pow_pos (by decide))
    _ = 10 ^ (length + (n + 1)) := (Nat.pow_add _ _ _).symm
    _ ≤ s.denominator := Nat.pow_le_pow_right (by decide) (by omega)

theorem mul_denominator_le {s : Scientific} (hs : s.coefficient ≠ 0) {n : Nat}
    (h : n < s.exponent + (Nat.toDigits 10 s.coefficient).length) :
    10 ^ n * s.denominator ≤ s.numerator := by
  have hLength := Nat.length_toDigits_pos (b := 10) (n := s.coefficient)
  have hCoefficient : 10 ^ ((Nat.toDigits 10 s.coefficient).length - 1) ≤ s.coefficient := by
    rw [← Nat.not_lt]
    intro hLess
    by_cases hOne : (Nat.toDigits 10 s.coefficient).length = 1
    · rw [hOne] at hLess
      exact hs (Nat.lt_one_iff.mp hLess)
    · have hShort := (Nat.length_toDigits_le_iff (by decide) (by omega)).mpr hLess
      omega
  generalize (Nat.toDigits 10 s.coefficient).length = length at h hLength hCoefficient
  calc 10 ^ n * s.denominator = 10 ^ (n + (-s.exponent).toNat) := (Nat.pow_add _ _ _).symm
    _ ≤ 10 ^ (length - 1 + s.exponent.toNat) := Nat.pow_le_pow_right (by decide) (by omega)
    _ = 10 ^ (length - 1) * 10 ^ s.exponent.toNat := Nat.pow_add _ _ _
    _ ≤ s.numerator := Nat.mul_le_mul_right _ hCoefficient

end Scientific

namespace Format

variable (F : Format)

theorem nearest_eq {num den m : Nat} (hDen : 0 < den) (h : F.roundsTo num den m = true)
    (hFinite : m < F.infinity) : F.nearest num den = m := by
  have hSize : m < 0 + 2 ^ (F.exponentBits + F.fractionBits) := by
    rw [Nat.zero_add, Nat.pow_add]
    exact Nat.lt_trans hFinite F.infinity_lt
  rw [nearest, leastFrom_eq (fun _ _ => F.roundsWithin_of_lt hDen) ((F.roundsTo_iff num den m).mp h).1
    (fun k => F.roundsWithin_eq_false_of_lt hDen h) (Nat.zero_le m) hSize]
  exact Nat.min_eq_left (Nat.le_of_lt hFinite)

theorem boundary_lt {m : Nat} (h : m < F.infinity) : F.boundary m < 2 * F.units F.infinity := by
  have hHere := F.units_strictMono h
  have hNext := F.units_strictMono.monotone (Nat.succ_le_of_lt h)
  rw [Nat.succ_eq_add_one] at hNext
  rw [boundary]
  omega

/-- Infinity is at most ten to the power by which numbers of extreme size are told. -/
def Wide : Prop := F.units F.infinity ≤ 10 ^ F.unitExponent * 2 ^ F.unitExponent

instance : Decidable F.Wide := inferInstanceAs (Decidable (_ ≤ _))

theorem wide_single : Format.single.Wide := by decide +kernel

theorem wide_double : Format.double.Wide := by decide +kernel

/-- A decimal whose leading digit is that far before the point exceeds all finite numbers. -/
theorem not_reads_of_large (hWide : F.Wide) {s : Scientific} (hs : s.coefficient ≠ 0)
    (hPlace : F.unitExponent < s.exponent + (Nat.toDigits 10 s.coefficient).length) {m : Nat}
    (hFinite : m < F.infinity) : ¬F.Reads s m := by
  have hGreater : F.boundary m * s.denominator < s.numerator * 2 ^ (F.unitExponent + 1) := by
    calc F.boundary m * s.denominator
        < 2 * (10 ^ F.unitExponent * 2 ^ F.unitExponent) * s.denominator :=
          Nat.mul_lt_mul_of_pos_right
            (Nat.lt_of_lt_of_le (F.boundary_lt hFinite) (Nat.mul_le_mul_left 2 hWide))
            s.denominator_pos
      _ = 10 ^ F.unitExponent * s.denominator * 2 ^ (F.unitExponent + 1) := by
          rw [Nat.mul_comm 2, Nat.mul_assoc (10 ^ F.unitExponent), Nat.mul_right_comm, Nat.pow_succ]
      _ ≤ s.numerator * 2 ^ (F.unitExponent + 1) :=
          Nat.mul_le_mul_right _ (Scientific.mul_denominator_le hs hPlace)
  intro h
  rcases (F.roundsWithin_iff _ _ m).mp ((F.roundsTo_iff _ _ m).mp h).1 with hLess | ⟨hEq, -⟩ <;> omega

/-- A decimal whose leading digit is that far after the point is nearest to zero. -/
theorem reads_zero_of_small {s : Scientific}
    (hPlace : s.exponent + (Nat.toDigits 10 s.coefficient).length < -F.unitExponent) :
    F.Reads s 0 := by
  refine (F.roundsTo_iff _ _ 0).mpr ⟨(F.roundsWithin_iff _ _ 0).mpr (.inl ?_), .inl rfl⟩
  calc s.numerator * 2 ^ (F.unitExponent + 1) ≤ s.numerator * 10 ^ (F.unitExponent + 1) :=
        Nat.mul_le_mul_left _ (Nat.pow_le_pow_left (by decide) _)
    _ < s.denominator := Scientific.numerator_mul_lt hPlace
    _ ≤ F.boundary 0 * s.denominator := Nat.le_mul_of_pos_left _ (F.boundary_pos 0)

theorem nearestScientific_eq (hWide : F.Wide) {s : Scientific} {m : Nat} (h : F.Reads s m)
    (hFinite : m < F.infinity) : F.nearestScientific s = m := by
  simp only [nearestScientific]
  split
  · next hZero => exact F.reads_unique (F.reads_zero hZero) h
  · next hNonzero =>
    split
    · next hLarge => exact absurd h (F.not_reads_of_large hWide hNonzero hLarge hFinite)
    · split
      · next hSmall => exact F.reads_unique (F.reads_zero_of_small hSmall) h
      · exact F.nearest_eq s.denominator_pos h hFinite

end Format

namespace Floating

variable {F : Format}

theorem splitSign_text {x : Floating F} (h : x.isNaN = false) :
    Numeral.splitSign x.text = (x.negative, x.absoluteText) := by
  rw [text_of_not_isNaN h]
  cases x.negative with
  | true => rfl
  | false =>
    rw [if_neg Bool.false_ne_true, List.nil_append]
    unfold Numeral.splitSign
    split
    · next hText => exact absurd hText (absoluteText_ne_sign x (.inl rfl) _)
    · next hText => exact absurd hText (absoluteText_ne_sign x (.inr rfl) _)
    · rfl

theorem lower_absoluteText {x : Floating F} (h : x.isInfinite = false) :
    Text.lower x.absoluteText = x.absoluteText := by
  rw [absoluteText, if_neg (by simp [h])]
  split
  · rfl
  · exact Layout.lower_write _ _

theorem read_text_of_not_isNaN (hWide : F.Wide) {x : Floating F} (h : x.isNaN = false) :
    read F x.text = some x := by
  rw [read, splitSign_text h]
  dsimp only
  obtain ⟨negative, magnitude, hSize⟩ := x
  cases hInfinite : isInfinite ⟨negative, magnitude, hSize⟩ with
  | true =>
    obtain rfl : magnitude = F.infinity := beq_iff_eq.mp hInfinite
    rw [absoluteText, if_pos hInfinite, if_pos (by decide)]
    rfl
  | false =>
    obtain ⟨s, hRead, hReads⟩ := reads_absoluteText hInfinite
    have hFinite : magnitude < F.infinity := by
      have hLe := of_decide_eq_false h
      have hNe := beq_eq_false_iff_ne.mp hInfinite
      dsimp only at hLe hNe
      omega
    -- no name of an infinity or a NaN is a numeral
    have hName : ∀ name, readScientific name = none →
        absoluteText ⟨negative, magnitude, hSize⟩ ≠ name := by
      rintro name hNone rfl
      rw [hRead] at hNone
      cases hNone
    rw [lower_absoluteText hInfinite, if_neg (not_or.mpr ⟨hName _ (by decide), hName _ (by decide)⟩),
      if_neg (hName _ (by decide)), hRead, Option.map_some]
    simp only [F.nearestScientific_eq hWide hReads hFinite]

/-- Only a NaN keeps its sign and payload to itself. -/
theorem read_text (hWide : F.Wide) (x : Floating F) : read F x.text = some x.unifyNaN := by
  rw [unifyNaN]
  cases h : x.isNaN with
  | false => exact read_text_of_not_isNaN hWide h
  | true =>
    rw [text_of_isNaN h]
    rfl

theorem isNaN_nan (hFraction : 0 < F.fractionSize / 2) : (nan F false).isNaN = true :=
  decide_eq_true (Nat.lt_add_of_pos_right hFraction)

theorem unifyNaN_of_not_isNaN {x : Floating F} (h : x.isNaN = false) : x.unifyNaN = x := by
  rw [unifyNaN, h]
  rfl

theorem isNaN_unifyNaN (hFraction : 0 < F.fractionSize / 2) (x : Floating F) :
    x.unifyNaN.isNaN = x.isNaN := by
  rw [unifyNaN]
  cases h : x.isNaN with
  | false => exact h
  | true => exact isNaN_nan hFraction

theorem text_unifyNaN (hFraction : 0 < F.fractionSize / 2) (x : Floating F) :
    x.unifyNaN.text = x.text := by
  cases h : x.isNaN with
  | false => rw [unifyNaN_of_not_isNaN h]
  | true => rw [text_of_isNaN h, text_of_isNaN ((isNaN_unifyNaN hFraction x).trans h)]

/-- Texts are equal just where numbers are, with all NaN taken for one. -/
theorem text_eq_iff (hWide : F.Wide) (hFraction : 0 < F.fractionSize / 2) (x y : Floating F) :
    x.text = y.text ↔ x.unifyNaN = y.unifyNaN := by
  constructor
  · intro h
    have hRead := congrArg (read F) h
    rw [read_text hWide, read_text hWide] at hRead
    exact Option.some.inj hRead
  · intro h
    rw [← text_unifyNaN hFraction x, h, text_unifyNaN hFraction y]

end Floating

end Bucketing
