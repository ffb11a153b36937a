import Bucketing.Floating.Shortest
import Mathlib.Algebra.Group.Nat.Defs
import Mathlib.Order.Monotone.Basic

/-! # Rounding determines one magnitude

The units of a magnitude grow with it, so the midpoints between neighbours do, and a fraction rounds
to one magnitude at most. Which one depends on the value of the fraction alone.
-/
namespace Bucketing.Format

variable (F : Format)

theorem units_of_lt {m : Nat} (h : m < F.fractionSize) : F.units m = m := by rw [units, if_pos h]

theorem units_normal (q r : Nat) (h : r < F.fractionSize) :
    F.units (F.fractionSize * (q + 1) + r) = (F.fractionSize + r) * 2 ^ q := by
  have hLarge : ¬F.fractionSize * (q + 1) + r < F.fractionSize := by
    have hLe : F.fractionSize ≤ F.fractionSize * (q + 1) := Nat.le_mul_of_pos_right _ q.succ_pos
    omega
  rw [units, if_neg hLarge, Nat.mul_add_mod, Nat.mod_eq_of_lt h,
    Nat.mul_add_div F.fractionSize_pos, Nat.div_eq_of_lt h, Nat.add_zero, Nat.add_sub_cancel]
  rfl

theorem units_lt_units_succ (m : Nat) : F.units m < F.units (m + 1) := by
  have hPos := F.fractionSize_pos
  by_cases hSub : m < F.fractionSize
  · rw [F.units_of_lt hSub]
    by_cases hNext : m + 1 < F.fractionSize
    · rw [F.units_of_lt hNext]
      exact Nat.lt_succ_self m
    · -- the first normal magnitude follows the last subnormal one without a gap
      have hFirst : m + 1 = F.fractionSize * (0 + 1) + 0 := by omega
      rw [hFirst, F.units_normal 0 0 hPos]
      omega
  · obtain ⟨q, hq⟩ : ∃ q, m / F.fractionSize = q + 1 :=
      ⟨m / F.fractionSize - 1, by have := Nat.div_pos (Nat.le_of_not_lt hSub) hPos; omega⟩
    have hr := Nat.mod_lt m hPos
    have hm : m = F.fractionSize * (q + 1) + m % F.fractionSize := by
      rw [← hq, Nat.div_add_mod]
    generalize m % F.fractionSize = r at hr hm
    subst hm
    rw [F.units_normal q r hr]
    by_cases hNext : r + 1 < F.fractionSize
    · rw [Nat.add_assoc, F.units_normal q (r + 1) hNext]
      exact Nat.mul_lt_mul_of_pos_right (by omega) (Nat.pow_pos (by decide))
    · have hCarry : F.fractionSize * (q + 1) + r + 1 = F.fractionSize * (q + 1 + 1) + 0 := by
        rw [Nat.mul_add _ (q + 1) 1]
        omega
      rw [hCarry, F.units_normal (q + 1) 0 hPos, Nat.add_zero, Nat.pow_succ']
      calc (F.fractionSize + r) * 2 ^ q < F.fractionSize * 2 * 2 ^ q :=
            Nat.mul_lt_mul_of_pos_right (by omega) (Nat.pow_pos (by decide))
        _ = F.fractionSize * (2 * 2 ^ q) := Nat.mul_assoc _ _ _

theorem units_strictMono : StrictMono F.units := strictMono_nat_of_lt_succ F.units_lt_units_succ

theorem boundary_pos (m : Nat) : 0 < F.boundary m := by
  have hNext := F.units_lt_units_succ m
  rw [boundary]
  omega

theorem boundary_lt_boundary {m n : Nat} (h : m < n) : F.boundary m < F.boundary n := by
  have hHere := F.units_strictMono h
  have hNext := F.units_strictMono (Nat.succ_lt_succ h)
  simp only [Nat.succ_eq_add_one] at hNext
  unfold boundary
  omega

theorem roundsWithin_iff (num den m : Nat) :
    F.roundsWithin num den m = true ↔
      num * 2 ^ (F.unitExponent + 1) < F.boundary m * den ∨
        num * 2 ^ (F.unitExponent + 1) = F.boundary m * den ∧ m % 2 = 0 := by
  simp [roundsWithin]

theorem roundsTo_iff (num den m : Nat) :
    F.roundsTo num den m = true ↔
      F.roundsWithin num den m = true ∧ (m = 0 ∨ F.roundsWithin num den (m - 1) = false) := by
  simp [roundsTo]

theorem roundsWithin_of_lt {num den m n : Nat} (hDen : 0 < den) (hLt : m < n)
    (h : F.roundsWithin num den m = true) : F.roundsWithin num den n = true := by
  have hLimit : F.boundary m * den < F.boundary n * den :=
    Nat.mul_lt_mul_of_pos_right (F.boundary_lt_boundary hLt) hDen
  refine (F.roundsWithin_iff num den n).mpr (.inl ?_)
  rcases (F.roundsWithin_iff num den m).mp h with h | ⟨h, _⟩ <;> omega

theorem roundsWithin_eq_false_of_lt {num den m k : Nat} (hDen : 0 < den)
    (h : F.roundsTo num den m = true) (hLt : k < m) : F.roundsWithin num den k = false := by
  obtain ⟨_, hZero | hBelow⟩ := (F.roundsTo_iff num den m).mp h
  · omega
  · rw [Bool.eq_false_iff]
    intro hWithin
    rcases Nat.lt_or_eq_of_le (Nat.le_sub_one_of_lt hLt) with hLess | rfl
    · rw [F.roundsWithin_of_lt hDen hLess hWithin] at hBelow
      cases hBelow
    · rw [hWithin] at hBelow
      cases hBelow

theorem roundsTo_unique {num den m n : Nat} (hDen : 0 < den) (hm : F.roundsTo num den m = true)
    (hn : F.roundsTo num den n = true) : m = n := by
  have hmWithin := ((F.roundsTo_iff num den m).mp hm).1
  have hnWithin := ((F.roundsTo_iff num den n).mp hn).1
  rcases Nat.lt_trichotomy m n with h | h | h
  · rw [F.roundsWithin_eq_false_of_lt hDen hn h] at hmWithin
    cases hmWithin
  · exact h
  · rw [F.roundsWithin_eq_false_of_lt hDen hm h] at hnWithin
    cases hnWithin

theorem roundsWithin_congr {num den num' den' : Nat} (hDen : 0 < den) (hDen' : 0 < den')
    (h : num * den' = num' * den) (m : Nat) :
    F.roundsWithin num den m = F.roundsWithin num' den' m := by
  have hValue : num * 2 ^ (F.unitExponent + 1) * den' = num' * 2 ^ (F.unitExponent + 1) * den := by
    rw [Nat.mul_right_comm, h, Nat.mul_right_comm]
  have hLimit : F.boundary m * den * den' = F.boundary m * den' * den := Nat.mul_right_comm _ _ _
  rw [Bool.eq_iff_iff, roundsWithin_iff, roundsWithin_iff, ← Nat.mul_lt_mul_right hDen',
    ← Nat.mul_right_cancel_iff hDen', hValue, hLimit, Nat.mul_lt_mul_right hDen,
    Nat.mul_right_cancel_iff hDen]

theorem roundsTo_congr {num den num' den' : Nat} (hDen : 0 < den) (hDen' : 0 < den')
    (h : num * den' = num' * den) (m : Nat) : F.roundsTo num den m = F.roundsTo num' den' m := by
  rw [roundsTo, roundsTo, F.roundsWithin_congr hDen hDen' h, F.roundsWithin_congr hDen hDen' h]

/-- Whether a decimal number rounds to a magnitude. -/
def Reads (s : Scientific) (m : Nat) : Prop := F.roundsTo s.numerator s.denominator m = true

theorem reads_unique {s : Scientific} {m n : Nat} (hm : F.Reads s m) (hn : F.Reads s n) : m = n :=
  F.roundsTo_unique s.denominator_pos hm hn

theorem reads_shift_iff (coefficient places : Nat) (exponent : Int) (m : Nat) :
    F.Reads ⟨coefficient * 10 ^ places, exponent - places⟩ m ↔ F.Reads ⟨coefficient, exponent⟩ m := by
  have hExponents : places + (exponent - places).toNat + (-exponent).toNat =
      exponent.toNat + (-(exponent - places)).toNat := by omega
  unfold Reads
  rw [F.roundsTo_congr (Scientific.denominator_pos _) (Scientific.denominator_pos ⟨coefficient, exponent⟩)]
  simp only [Scientific.numerator, Scientific.denominator, Nat.pow_eq]
  rw [Nat.mul_assoc coefficient, Nat.mul_assoc coefficient, Nat.mul_assoc coefficient,
    ← Nat.pow_add, ← Nat.pow_add, ← Nat.pow_add, hExponents]

theorem reads_exactForm (m : Nat) : F.Reads (F.exactForm m) m := by
  have hDen : (F.exactForm m).denominator = 5 ^ F.unitExponent * 2 ^ F.unitExponent := by
    simp [exactForm, Scientific.denominator, ← Nat.mul_pow]
  have hNum : (F.exactForm m).numerator = F.units m * 5 ^ F.unitExponent := by
    simp [exactForm, Scientific.numerator]
  have hScale : 0 < 5 ^ F.unitExponent * 2 ^ F.unitExponent :=
    Nat.mul_pos (Nat.pow_pos (by decide)) (Nat.pow_pos (by decide))
  have hValue : (F.exactForm m).numerator * 2 ^ (F.unitExponent + 1) =
      (F.units m + F.units m) * (F.exactForm m).denominator := by
    rw [hNum, hDen, Nat.pow_succ, Nat.add_mul, ← Nat.mul_two]
    simp only [Nat.mul_assoc]
  have hNext := F.units_lt_units_succ m
  refine (F.roundsTo_iff _ _ m).mpr ⟨(F.roundsWithin_iff _ _ m).mpr (.inl ?_), ?_⟩
  · rw [hValue, hDen]
    exact Nat.mul_lt_mul_of_pos_right (by unfold boundary; omega) hScale
  · cases m with
    | zero => exact .inl rfl
    | succ m =>
      right
      rw [Bool.eq_false_iff, Ne, roundsWithin_iff, hValue, hDen]
      have hBelow := F.units_lt_units_succ m
      have hGreater : F.boundary m * (5 ^ F.unitExponent * 2 ^ F.unitExponent) <
          (F.units (m + 1) + F.units (m + 1)) * (5 ^ F.unitExponent * 2 ^ F.unitExponent) :=
        Nat.mul_lt_mul_of_pos_right (by unfold boundary; omega) hScale
      simp only [Nat.add_sub_cancel]
      omega

theorem reads_of_neighbour?_eq_some (tie : Tie) (m : Nat) (place : Int) (s : Scientific)
    (h : F.neighbour? tie m place = some s) : F.Reads s m := by
  simp only [neighbour?] at h
  split at h
  · next hLow hHigh =>
    cases h
    split
    · exact hHigh
    · exact hLow
  · next hLow _ =>
    cases h
    exact hLow
  · next _ hHigh =>
    cases h
    exact hHigh
  · cases h

theorem reads_shortest (tie : Tie) (m : Nat) : F.Reads (F.shortest tie m) m := by
  simp only [shortest]
  generalize leadingPlace _ _ = first
  cases hFound : (List.range 17).findSome? fun (n : Nat) => F.neighbour? tie m (first - n) with
  | none => exact F.reads_exactForm m
  | some s =>
    obtain ⟨n, _, hn⟩ := List.exists_of_findSome?_eq_some hFound
    exact F.reads_of_neighbour?_eq_some tie m (first - n) s hn

theorem reads_zero {s : Scientific} (hs : s.coefficient = 0) : F.Reads s 0 := by
  have hNum : s.numerator = 0 := by simp [Scientific.numerator, hs]
  have hLimit : 0 < F.boundary 0 * s.denominator := Nat.mul_pos (F.boundary_pos 0) s.denominator_pos
  exact (F.roundsTo_iff _ _ 0).mpr
    ⟨(F.roundsWithin_iff _ _ 0).mpr (.inl (by simpa [hNum] using hLimit)), .inl rfl⟩

theorem coefficient_ne_zero_of_reads {s : Scientific} {m : Nat} (hm : m ≠ 0) (h : F.Reads s m) :
    s.coefficient ≠ 0 :=
  fun hZero => hm (F.reads_unique h (F.reads_zero hZero))

end Bucketing.Format
