import Bucketing.Proofs.Text.LeadingZeros
import Mathlib.Algebra.Field.Rat
import Mathlib.Tactic.NormNum

/-! # Plain numerals

A plain numeral is an optional sign and digits with an optional point among them, at least one digit
in all. It denotes a rational number, and a text spells one numeral at most: the one that is cut out
of it at the sign and at the point.
-/
namespace Bucketing

structure PlainNumeral where
  negative : Bool
  whole : List Char
  fraction : List Char

namespace PlainNumeral

open Numeral

/-- A body behind a sign; a plus may be left out. -/
inductive Signed : Bool → List Char → List Char → Prop where
  | minus (body : List Char) : Signed true body ('-' :: body)
  | plus (body : List Char) : Signed false body ('+' :: body)
  | bare (body : List Char) : Signed false body body

/-- Digits on both sides of a point; a point with nothing behind it may be left out. -/
inductive Pointed : List Char → List Char → List Char → Prop where
  | point (whole fraction : List Char) : Pointed whole fraction (whole ++ '.' :: fraction)
  | bare (whole : List Char) : Pointed whole [] whole

def digits (n : PlainNumeral) : List Char := n.whole ++ n.fraction

/-- At least one digit, and nothing but digits. -/
structure WellFormed (n : PlainNumeral) : Prop where
  whole : isDigits n.whole = true
  fraction : isDigits n.fraction = true
  digits_ne_nil : n.digits ≠ []

structure SpelledBy (n : PlainNumeral) (text : List Char) : Prop where
  wellFormed : n.WellFormed
  text : ∃ body, Signed n.negative body text ∧ Pointed n.whole n.fraction body

def coefficient (n : PlainNumeral) : Int :=
  if n.negative then -(value n.digits : Int) else value n.digits

/-- The number that is denoted. -/
def number (n : PlainNumeral) : ℚ := n.coefficient / 10 ^ n.fraction.length

/-- The parts of a text, cut at its sign and its first point. -/
def ofText (text : List Char) : PlainNumeral where
  negative := (splitSign text).1
  whole := (splitPoint (splitSign text).2).1
  fraction := (splitPoint (splitSign text).2).2

theorem signed_splitSign (text : List Char) : Signed (splitSign text).1 (splitSign text).2 text := by
  unfold splitSign
  split
  · exact .minus _
  · exact .plus _
  · exact .bare _

theorem pointed_splitPoint (body : List Char) :
    Pointed (splitPoint body).1 (splitPoint body).2 body := by
  have hSplit := List.takeWhile_append_dropWhile (p := (· != '.')) (l := body)
  cases hRest : body.dropWhile (· != '.') with
  | nil =>
    rw [hRest, List.append_nil] at hSplit
    have hBare := Pointed.bare body
    rwa [splitPoint, hRest, hSplit]
  | cons c rest =>
    have hPoint : c = '.' := by
      have hHead := List.head?_dropWhile_not (· != '.') body
      simpa [hRest] using hHead
    subst hPoint
    have hBody := Pointed.point (body.takeWhile (· != '.')) rest
    rw [← hRest, hSplit] at hBody
    rwa [splitPoint, hRest]

theorem splitPoint_of_pointed {whole fraction body : List Char} (h : Pointed whole fraction body)
    (hWhole : isDigits whole = true) : splitPoint body = (whole, fraction) := by
  have hPoint := not_mem_of_isDigits hWhole (c := '.') rfl
  cases h with
  | point => exact splitPoint_append hPoint fraction
  | bare => exact splitPoint_of_not_mem hPoint

/-- A body starts with a digit or with the point, and so with no sign. -/
theorem splitSign_of_signed {negative : Bool} {n : PlainNumeral} {body text : List Char}
    (h : Signed negative body text) (hn : n.WellFormed) (hBody : Pointed n.whole n.fraction body) :
    splitSign text = (negative, body) := by
  cases h with
  | minus => rfl
  | plus => rfl
  | bare =>
    obtain ⟨negative, whole, fraction⟩ := n
    cases whole with
    | cons c whole =>
      have hc : c.isDigit = true := (isDigits_iff _).mp hn.whole c List.mem_cons_self
      cases hBody <;> exact splitSign_of_isDigit hc _
    | nil =>
      cases hBody with
      | point => rfl
      | bare => exact absurd rfl hn.digits_ne_nil

theorem spelledBy_iff (n : PlainNumeral) (text : List Char) :
    n.SpelledBy text ↔ n = ofText text ∧ n.WellFormed := by
  constructor
  · rintro ⟨hn, body, hSign, hBody⟩
    refine ⟨?_, hn⟩
    rw [ofText, splitSign_of_signed hSign hn hBody, splitPoint_of_pointed hBody hn.whole]
  · rintro ⟨rfl, hn⟩
    exact ⟨hn, _, signed_splitSign text, pointed_splitPoint _⟩

/-- A sign that is written only where it is a minus. -/
theorem signed_minus_if (n : Int) (body : List Char) :
    Signed (decide (n < 0)) body ((if n < 0 then ['-'] else []) ++ body) := by
  split
  · next h =>
    rw [decide_eq_true h]
    exact .minus body
  · next h =>
    rw [decide_eq_false h]
    exact .bare body

theorem coefficient_eq_of_natAbs {n : Int} {whole fraction : List Char}
    (h : value (whole ++ fraction) = n.natAbs) : coefficient ⟨decide (n < 0), whole, fraction⟩ = n := by
  have hDigits : value (digits ⟨decide (n < 0), whole, fraction⟩) = n.natAbs := h
  rw [coefficient, hDigits]
  split
  · next hNegative =>
    rw [Int.ofNat_natAbs_of_nonpos (Int.le_of_lt (of_decide_eq_true hNegative)), Int.neg_neg]
  · next hNegative =>
    exact Int.natAbs_of_nonneg (Int.not_lt.mp fun h => hNegative (decide_eq_true h))

theorem natAbs_coefficient (n : PlainNumeral) : n.coefficient.natAbs = value n.digits := by
  rw [coefficient]
  split
  · rw [Int.natAbs_neg, Int.natAbs_natCast]
  · exact Int.natAbs_natCast _

/-- At a scale that has places for the whole fraction, the number is an integer times a power of ten
exactly if the coefficients agree, once zeros are appended to the one that is short of them. -/
theorem number_eq_iff {n : PlainNumeral} {scale : Int} (h : n.fraction.length ≤ scale.toNat) (u : Int) :
    n.number = u * 10 ^ (-scale) ↔
      u * 10 ^ (-scale).toNat = n.coefficient * 10 ^ (scale.toNat - n.fraction.length) := by
  have hTen : (10 : ℚ) ≠ 0 := by norm_num
  have hPower : (10 : ℚ) ^ (-scale) = 10 ^ (-scale).toNat / 10 ^ scale.toNat := by
    rw [← zpow_natCast, ← zpow_natCast, ← zpow_sub₀ hTen]
    congr 1
    omega
  have hPlaces : (10 : ℚ) ^ scale.toNat =
      10 ^ (scale.toNat - n.fraction.length) * 10 ^ n.fraction.length := by
    rw [← pow_add, Nat.sub_add_cancel h]
  rw [number, hPower, ← mul_div_assoc, div_eq_div_iff (pow_ne_zero _ hTen) (pow_ne_zero _ hTen),
    hPlaces, ← mul_assoc, mul_left_inj' (pow_ne_zero _ hTen), eq_comm]
  norm_cast

end PlainNumeral

end Bucketing
