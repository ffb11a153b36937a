import Bucketing.Proofs.Text.Blank
import Bucketing.Text.Numeral
import Mathlib.Algebra.Group.Nat.Defs

/-! # Numerals read back

What the digits of a number are, what they are worth, and that cutting a numeral at its sign, its
point or a mark gives back the parts it was put together from.
-/
namespace Bucketing

namespace Numeral

theorem isSome_digit?_iff (c : Char) : (digit? c).isSome = true ↔ c.isDigit = true := by
  have hDigit : ('0' ≤ c ∧ c ≤ '9') ↔ c.isDigit = true := by
    simp [Char.isDigit, Char.le_def]
  rw [← hDigit, digit?]
  split <;> simp_all

theorem isDigits_iff (text : List Char) : isDigits text = true ↔ ∀ c ∈ text, c.isDigit = true := by
  simp only [isDigits, List.all_eq_true, isSome_digit?_iff]

theorem isDigits_toDigits (n : Nat) : isDigits (Nat.toDigits 10 n) = true :=
  (isDigits_iff _).mpr fun _ h => Nat.isDigit_of_mem_toDigits (by decide) (by decide) h

theorem isDigits_zeros (n : Nat) : isDigits (List.replicate n '0') = true := by
  rw [isDigits_iff]
  intro c h
  rw [List.eq_of_mem_replicate h]
  rfl

theorem isDigits_append_iff (a b : List Char) :
    isDigits (a ++ b) = true ↔ isDigits a = true ∧ isDigits b = true := by
  simp [isDigits]

theorem isDigits_take {text : List Char} (h : isDigits text = true) (n : Nat) :
    isDigits (text.take n) = true := by
  rw [← List.take_append_drop n text, isDigits_append_iff] at h
  exact h.1

theorem isDigits_drop {text : List Char} (h : isDigits text = true) (n : Nat) :
    isDigits (text.drop n) = true := by
  rw [← List.take_append_drop n text, isDigits_append_iff] at h
  exact h.2

theorem not_mem_of_isDigits {text : List Char} (h : isDigits text = true) {c : Char}
    (hc : c.isDigit = false) : c ∉ text := by
  intro hMem
  rw [(isDigits_iff text).mp h c hMem] at hc
  cases hc

@[simp] theorem value_toDigits (n : Nat) : value (Nat.toDigits 10 n) = n :=
  Nat.ofDigitChars_ten_toDigits

theorem value_append (a b : List Char) : value (a ++ b) = 10 ^ b.length * value a + value b := by
  rw [value, Nat.ofDigitChars_append, Nat.ofDigitChars_eq_ofDigitChars_zero]
  rfl

@[simp] theorem value_zeros (n : Nat) : value (List.replicate n '0') = 0 := by
  simp [value, Nat.ofDigitChars_replicate_zero]

theorem value_append_zeros (text : List Char) (n : Nat) :
    value (text ++ List.replicate n '0') = value text * 10 ^ n := by
  rw [value_append, value_zeros, List.length_replicate, Nat.add_zero, Nat.mul_comm]

theorem value_zeros_append (text : List Char) (n : Nat) :
    value (List.replicate n '0' ++ text) = value text := by
  rw [value_append, value_zeros, Nat.mul_zero, Nat.zero_add]

theorem value_zero_cons (text : List Char) : value ('0' :: text) = value text :=
  value_zeros_append text 1

/-- Digits have no sign in front of them. -/
theorem splitSign_of_isDigit {c : Char} (hc : c.isDigit = true) (text : List Char) :
    splitSign (c :: text) = (false, c :: text) := by
  unfold splitSign
  split
  · simp_all
  · simp_all
  · rfl

theorem splitSign_write (n : Int) : splitSign (write n) = (decide (n < 0), Nat.toDigits 10 n.natAbs) := by
  by_cases hNeg : n < 0
  · simp [write, hNeg, splitSign]
  · obtain ⟨c, text, hText⟩ := List.exists_cons_of_ne_nil (Nat.toDigits_ne_nil (n := n.natAbs) (b := 10))
    have hDigit : c.isDigit = true :=
      (isDigits_iff _).mp (isDigits_toDigits n.natAbs) c (by simp [hText])
    simp [write, hNeg, hText, splitSign_of_isDigit hDigit]

theorem write_natCast (n : Nat) : write n = Nat.toDigits 10 n := by
  rw [write, if_neg (Int.not_lt.mpr (Int.natCast_nonneg n)), List.nil_append, Int.natAbs_natCast]

theorem write_inj {m n : Int} : write m = write n ↔ m = n := by
  constructor
  · intro h
    have hSplit := congrArg splitSign h
    rw [splitSign_write, splitSign_write, Prod.mk.injEq, decide_eq_decide] at hSplit
    have hAbs := congrArg value hSplit.2
    rw [value_toDigits, value_toDigits] at hAbs
    omega
  · rintro rfl
    rfl

theorem splitPoint_of_not_mem {whole : List Char} (h : '.' ∉ whole) :
    splitPoint whole = (whole, []) := by
  have hAll : ∀ c ∈ whole, (c != '.') = true := by
    intro c hc
    exact bne_iff_ne.mpr fun hPoint => h (hPoint ▸ hc)
  have hSplit : splitPoint (whole ++ []) = (whole ++ [], []) := by
    rw [splitPoint, List.takeWhile_append_of_pos hAll, List.dropWhile_append_of_pos hAll]
    rfl
  rwa [List.append_nil] at hSplit

theorem splitPoint_append {whole : List Char} (h : '.' ∉ whole) (fraction : List Char) :
    splitPoint (whole ++ '.' :: fraction) = (whole, fraction) := by
  have hAll : ∀ c ∈ whole, (c != '.') = true := by
    intro c hc
    exact bne_iff_ne.mpr fun hPoint => h (hPoint ▸ hc)
  simp [splitPoint, List.takeWhile_append_of_pos hAll, List.dropWhile_append_of_pos hAll]

end Numeral

namespace Text

theorem cut?_eq_none_of_not_mem {mark : Char} {text : List Char} (h : mark ∉ text) :
    cut? mark text = none := by
  induction text with
  | nil => rfl
  | cons c text ih =>
    simp only [List.mem_cons, not_or] at h
    simp [cut?, Ne.symm h.1, ih h.2]

theorem toLower_of_isDigit {c : Char} (h : c.isDigit = true) : c.toLower = c := by
  simp only [Char.isDigit, Bool.and_eq_true, decide_eq_true_eq] at h
  apply toLower_of_not_upper
  intro hUpper
  have hLetter : 65 ≤ c.val.toNat := hUpper.1
  have hDigit : c.val.toNat ≤ 57 := h.2
  omega

theorem isBlank_of_isDigit {c : Char} (h : c.isDigit = true) : isBlank c = false := by
  simp only [Char.isDigit, Bool.and_eq_true, decide_eq_true_eq] at h
  have hLow : 48 ≤ c.toNat := h.1
  have hHigh : c.toNat ≤ 57 := h.2
  exact isBlank_eq_false_of_visible (by omega)

theorem any_isBlank_of_isDigits {text : List Char} (h : Numeral.isDigits text = true) :
    text.any isBlank = false := by
  rw [List.any_eq_false]
  intro c hc
  rw [isBlank_of_isDigit ((Numeral.isDigits_iff text).mp h c hc)]
  exact Bool.false_ne_true

end Text

end Bucketing

/-! ## Printable text

Texts without blanks and control characters. The texts of all scalar values but strings are such, so
a control character can stand between them.
-/
namespace Bucketing.Text

def Printable (text : List Char) : Prop := ∀ c ∈ text, ' ' < c

instance (text : List Char) : Decidable (Printable text) := List.decidableBAll (' ' < ·) text

theorem printable_nil : Printable [] := by
  intro c h
  cases h

@[simp] theorem printable_cons_iff (c : Char) (text : List Char) :
    Printable (c :: text) ↔ ' ' < c ∧ Printable text := List.forall_mem_cons

@[simp] theorem printable_append_iff (a b : List Char) :
    Printable (a ++ b) ↔ Printable a ∧ Printable b := List.forall_mem_append

theorem Printable.take {text : List Char} (h : Printable text) (n : Nat) : Printable (text.take n) :=
  fun c hc => h c (List.mem_of_mem_take hc)

theorem Printable.drop {text : List Char} (h : Printable text) (n : Nat) : Printable (text.drop n) :=
  fun c hc => h c (List.mem_of_mem_drop hc)

theorem Printable.not_mem {text : List Char} (h : Printable text) {c : Char} (hc : c ≤ ' ') :
    c ∉ text :=
  fun hMem => Char.not_lt.mpr hc (h c hMem)

theorem printable_of_isDigits {text : List Char} (h : Numeral.isDigits text = true) :
    Printable text := by
  intro c hc
  have hDigit := (Numeral.isDigits_iff text).mp h c hc
  simp only [Char.isDigit, Bool.and_eq_true, decide_eq_true_eq] at hDigit
  exact Char.lt_def.mpr (Nat.lt_of_lt_of_le (by decide) hDigit.1)

theorem printable_toDigits (n : Nat) : Printable (Nat.toDigits 10 n) :=
  printable_of_isDigits (Numeral.isDigits_toDigits n)

theorem printable_zeros (n : Nat) : Printable (List.replicate n '0') :=
  printable_of_isDigits (Numeral.isDigits_zeros n)

theorem printable_write (n : Int) : Printable (Numeral.write n) := by
  rw [Numeral.write, printable_append_iff]
  refine ⟨?_, printable_toDigits _⟩
  split <;> decide

end Bucketing.Text
