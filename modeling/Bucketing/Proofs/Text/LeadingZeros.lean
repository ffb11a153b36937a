import Bucketing.Proofs.Text.Numeral
import Mathlib.Data.List.Induction

/-! # Digits and leading zeros

A number is below a power of ten exactly if its digits, without the leading zeros, are no more than
the zeros of that power.
-/
namespace Bucketing.Numeral

theorem digit?_eq_none_iff (c : Char) : digit? c = none ↔ c.isDigit = false := by
  rw [← Option.not_isSome_iff_eq_none, isSome_digit?_iff, Bool.not_eq_true]

theorem value_of_digit? {c : Char} {d : Nat} (h : digit? c = some d) :
    c.isDigit = true ∧ value [c] = d ∧ d < 10 := by
  have hDigit : c.isDigit = true := (isSome_digit?_iff c).mp (by rw [h]; rfl)
  simp only [digit?, Option.ite_none_right_eq_some, Option.some.injEq] at h
  obtain ⟨⟨hLow, hHigh⟩, rfl⟩ := h
  have hHigh : c.toNat ≤ 57 := hHigh
  refine ⟨hDigit, ?_, ?_⟩
  · simp [value, Nat.ofDigitChars_cons]
  · change c.toNat - 48 < 10
    omega

theorem digit?_eq_some_zero_iff (c : Char) : digit? c = some 0 ↔ c = '0' := by
  constructor
  · intro h
    simp only [digit?, Option.ite_none_right_eq_some, Option.some.injEq] at h
    obtain ⟨⟨hLow, -⟩, hZero⟩ := h
    have hLow : '0'.toNat ≤ c.toNat := hLow
    exact Char.toNat_inj.mp (Nat.le_antisymm (Nat.le_of_sub_eq_zero hZero) hLow)
  · rintro rfl
    rfl

theorem value_append_singleton (digits : List Char) (c : Char) :
    value (digits ++ [c]) = value digits * 10 + value [c] := by
  rw [value_append, List.length_singleton, Nat.pow_one, Nat.mul_comm]

theorem value_le_value_append (a b : List Char) : value a ≤ value (a ++ b) := by
  rw [value_append]
  exact Nat.le_add_right_of_le (Nat.le_mul_of_pos_left _ (Nat.pow_pos (by decide)))

theorem isDigits_append_singleton_iff (digits : List Char) (c : Char) :
    isDigits (digits ++ [c]) = true ↔ isDigits digits = true ∧ c.isDigit = true := by
  rw [isDigits_append_iff]
  simp [isDigits, isSome_digit?_iff]

def stripZeros (digits : List Char) : List Char := digits.dropWhile (· == '0')

theorem stripZeros_append_singleton (digits : List Char) (c : Char) :
    stripZeros (digits ++ [c]) =
      if stripZeros digits = [] ∧ c = '0' then [] else stripZeros digits ++ [c] := by
  rw [stripZeros, stripZeros, List.dropWhile_append]
  cases hStrip : digits.dropWhile (· == '0') with
  | nil => by_cases hc : c = '0' <;> simp [hc]
  | cons d rest => simp

theorem length_stripZeros_le_iff {digits : List Char} (h : isDigits digits = true) (n : Nat) :
    (stripZeros digits).length ≤ n ↔ value digits < 10 ^ n := by
  induction digits using List.reverseRecOn generalizing n with
  | nil => exact iff_of_true (Nat.zero_le n) (Nat.pow_pos (by decide))
  | append_singleton digits c ih =>
    obtain ⟨hDigits, hc⟩ := (isDigits_append_singleton_iff digits c).mp h
    obtain ⟨d, hd⟩ := Option.isSome_iff_exists.mp ((isSome_digit?_iff c).mpr hc)
    obtain ⟨-, hValue, hTen⟩ := value_of_digit? hd
    have hEmpty := ih hDigits 0
    rw [Nat.pow_zero, Nat.le_zero, List.length_eq_zero_iff] at hEmpty
    rw [value_append_singleton, hValue, stripZeros_append_singleton]
    split
    · next hZeros =>
      obtain ⟨hStrip, rfl⟩ := hZeros
      cases hd
      have hPos : 0 < 10 ^ n := Nat.pow_pos (by decide)
      have hNone := hEmpty.mp hStrip
      simp only [List.length_nil]
      omega
    · next hDigit =>
      rw [List.length_append, List.length_singleton]
      cases n with
      | zero =>
        have hPositive : ¬(value digits < 1 ∧ d = 0) := by
          rintro ⟨hNone, rfl⟩
          exact hDigit ⟨hEmpty.mpr hNone, (digit?_eq_some_zero_iff c).mp hd⟩
        rw [Nat.pow_zero]
        omega
      | succ n =>
        rw [Nat.add_le_add_iff_right, ih hDigits, Nat.pow_succ]
        omega

/-- Digits are fewer than a power of ten, without being stripped. -/
theorem value_lt_pow_length {digits : List Char} (h : isDigits digits = true) :
    value digits < 10 ^ digits.length :=
  (length_stripZeros_le_iff h _).mp (List.dropWhile_sublist _).length_le

end Bucketing.Numeral
