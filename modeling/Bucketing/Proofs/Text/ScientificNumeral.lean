import Bucketing.Proofs.Text.PlainNumeral

/-! # Scientific numerals

A scientific numeral is a plain numeral, to which the letter e and an exponent of ten may be added.
The letter stands in no plain numeral, so that a text spells one numeral at most, and denotes at most
one number.
-/
namespace Bucketing

/-- Without an exponent in the text, the exponent is zero. -/
structure ScientificNumeral where
  mantissa : PlainNumeral
  exponent : Int

namespace ScientificNumeral

open Numeral PlainNumeral

/-- An optional sign and at least one digit, and nothing else. -/
inductive SpellsInteger : Int → List Char → Prop where
  | intro {negative : Bool} {digits text : List Char} (sign : Signed negative digits text)
      (isDigits : isDigits digits = true) (ne_nil : digits ≠ []) :
      SpellsInteger (coefficient ⟨negative, digits, []⟩) text

inductive SpelledBy : ScientificNumeral → List Char → Prop where
  | plain {n : PlainNumeral} {text : List Char} (mantissa : n.SpelledBy text) : SpelledBy ⟨n, 0⟩ text
  | scientific {n : PlainNumeral} {text exponentText : List Char} {mark : Char} {e : Int}
      (mantissa : n.SpelledBy text) (isMark : mark = 'e' ∨ mark = 'E')
      (exponent : SpellsInteger e exponentText) : SpelledBy ⟨n, e⟩ (text ++ mark :: exponentText)

/-- The number that is denoted. -/
def number (n : ScientificNumeral) : ℚ := n.mantissa.number * 10 ^ n.exponent

/-- Digits behind the point, once the point is moved by the exponent. -/
def places (n : ScientificNumeral) : Int := n.mantissa.fraction.length - n.exponent

/-- The text is a plain or a scientific numeral of the number. -/
def Denotes (text : List Char) (q : ℚ) : Prop := ∃ n : ScientificNumeral, n.SpelledBy text ∧ n.number = q

theorem number_eq (n : ScientificNumeral) : n.number = n.mantissa.coefficient * 10 ^ (-n.places) := by
  have hTen : (10 : ℚ) ≠ 0 := by norm_num
  rw [number, PlainNumeral.number, places, neg_sub, zpow_sub₀ hTen, zpow_natCast, div_mul_eq_mul_div,
    mul_div_assoc]

theorem spellsInteger_iff (n : Int) (text : List Char) :
    SpellsInteger n text ↔ isDigits (splitSign text).2 = true ∧ (splitSign text).2 ≠ [] ∧
      n = coefficient ⟨(splitSign text).1, (splitSign text).2, []⟩ := by
  constructor
  · rintro @⟨negative, whole, _, hSign, hDigits, hNonempty⟩
    have hWellFormed : WellFormed ⟨negative, whole, []⟩ :=
      ⟨hDigits, rfl, by rwa [digits, List.append_nil]⟩
    rw [splitSign_of_signed hSign hWellFormed (.bare whole)]
    exact ⟨hDigits, hNonempty, rfl⟩
  · rintro ⟨hDigits, hNonempty, rfl⟩
    exact .intro (signed_splitSign text) hDigits hNonempty

theorem SpellsInteger.unique {m n : Int} {text : List Char} (hm : SpellsInteger m text)
    (hn : SpellsInteger n text) : m = n := by
  rw [((spellsInteger_iff m text).mp hm).2.2, ((spellsInteger_iff n text).mp hn).2.2]

theorem spellsInteger_write (n : Int) : SpellsInteger n (write n) := by
  have hText := SpellsInteger.intro (signed_minus_if n (Nat.toDigits 10 n.natAbs))
    (isDigits_toDigits n.natAbs) Nat.toDigits_ne_nil
  rwa [coefficient_eq_of_natAbs (by rw [List.append_nil, value_toDigits])] at hText

theorem spellsInteger_plus_write {n : Int} (h : 0 < n) : SpellsInteger n ('+' :: write n) := by
  have hNegative : ¬n < 0 := Int.not_lt.mpr (Int.le_of_lt h)
  have hText := SpellsInteger.intro (.plus (Nat.toDigits 10 n.natAbs)) (isDigits_toDigits n.natAbs)
    Nat.toDigits_ne_nil
  rw [← decide_eq_false hNegative,
    coefficient_eq_of_natAbs (by rw [List.append_nil, value_toDigits])] at hText
  rwa [write, if_neg hNegative, List.nil_append]

/-- The letters that stand before an exponent. -/
def isMark (c : Char) : Bool := c == 'e' || c == 'E'

theorem isMark_eq_false_of_isDigits {digits : List Char} (h : isDigits digits = true) :
    ∀ c ∈ digits, isMark c = false := by
  intro c hc
  rw [Bool.eq_false_iff, Ne, isMark, Bool.or_eq_true, beq_iff_eq, beq_iff_eq]
  rintro (rfl | rfl)
  · exact not_mem_of_isDigits h rfl hc
  · exact not_mem_of_isDigits h rfl hc

theorem isMark_eq_false_of_spelledBy {n : PlainNumeral} {text : List Char} (h : n.SpelledBy text) :
    ∀ c ∈ text, isMark c = false := by
  obtain ⟨negative, whole, fraction⟩ := n
  obtain ⟨hn, body, hSign, hBody⟩ := h
  have hWhole := isMark_eq_false_of_isDigits hn.whole
  have hFraction := isMark_eq_false_of_isDigits hn.fraction
  have hAll : ∀ c ∈ body, isMark c = false := by
    cases hBody with
    | point => exact List.forall_mem_append.mpr ⟨hWhole, List.forall_mem_cons.mpr ⟨rfl, hFraction⟩⟩
    | bare => exact hWhole
  cases hSign with
  | minus => exact List.forall_mem_cons.mpr ⟨rfl, hAll⟩
  | plus => exact List.forall_mem_cons.mpr ⟨rfl, hAll⟩
  | bare => exact hAll

theorem isMark_of_eq {c : Char} (h : c = 'e' ∨ c = 'E') : isMark c = true := by
  rcases h with rfl | rfl <;> rfl

/-- What stands before the first mark of a text with an exponent is the mantissa. -/
theorem takeWhile_not_isMark {n : PlainNumeral} {text exponentText : List Char} {mark : Char}
    (h : n.SpelledBy text) (hMark : mark = 'e' ∨ mark = 'E') :
    (text ++ mark :: exponentText).takeWhile (fun c => !isMark c) = text := by
  have hBefore : ∀ c ∈ text, (!isMark c) = true := by
    intro c hc
    rw [isMark_eq_false_of_spelledBy h c hc, Bool.not_false]
  rw [List.takeWhile_append_of_pos hBefore,
    List.takeWhile_cons_of_neg (by rw [isMark_of_eq hMark]; exact Bool.false_ne_true), List.append_nil]

theorem not_spelledBy_of_mark {n : PlainNumeral} {text exponentText : List Char} {mark : Char}
    (hMark : mark = 'e' ∨ mark = 'E') : ¬n.SpelledBy (text ++ mark :: exponentText) := by
  intro h
  have hNone := isMark_eq_false_of_spelledBy h mark (by simp)
  rw [isMark_of_eq hMark] at hNone
  cases hNone

theorem SpelledBy.unique {m n : ScientificNumeral} {text : List Char} (hm : m.SpelledBy text)
    (hn : n.SpelledBy text) : m = n := by
  generalize hText : text = other at hn
  cases hm with
  | plain hMantissa =>
    cases hn with
    | plain hOther =>
      subst hText
      rw [((spelledBy_iff _ text).mp hMantissa).1, ((spelledBy_iff _ text).mp hOther).1]
    | scientific _ hMark _ =>
      rw [hText] at hMantissa
      exact absurd hMantissa (not_spelledBy_of_mark hMark)
  | scientific hMantissa hMark hExponent =>
    cases hn with
    | plain hOther =>
      rw [← hText] at hOther
      exact absurd hOther (not_spelledBy_of_mark hMark)
    | scientific hOther hOtherMark hOtherExponent =>
      have hBefore := congrArg (List.takeWhile fun c => !isMark c) hText
      rw [takeWhile_not_isMark hMantissa hMark, takeWhile_not_isMark hOther hOtherMark] at hBefore
      subst hBefore
      obtain ⟨-, rfl⟩ := List.cons.inj (List.append_cancel_left hText)
      rw [((spelledBy_iff _ _).mp hMantissa).1, ((spelledBy_iff _ _).mp hOther).1,
        hExponent.unique hOtherExponent]

theorem denotes_iff_of_spelledBy {n : ScientificNumeral} {text : List Char} (h : n.SpelledBy text) (q : ℚ) :
    Denotes text q ↔ q = n.number := by
  constructor
  · rintro ⟨m, hm, rfl⟩
    rw [hm.unique h]
  · rintro rfl
    exact ⟨n, h, rfl⟩

end ScientificNumeral

end Bucketing
