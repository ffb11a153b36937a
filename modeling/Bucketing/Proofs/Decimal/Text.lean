import Bucketing.Proofs.Decimal.Order
import Bucketing.Proofs.Text.Numeral
import Bucketing.Proofs.Text.ScientificNumeral

/-! # The numeral in the text of a decimal

Plain or with an exponent, the text of a decimal is a numeral. Its digits make the unscaled integer,
and as many of them stand behind the point as the scale says, once the exponent has moved the point.
So the text denotes the number of the decimal, and tells the unscaled integer and the scale.
-/
namespace Bucketing.Decimal

open Numeral PlainNumeral

theorem printable_plain {digits : List Char} (h : Text.Printable digits) (scale : Nat) :
    Text.Printable (plain digits scale) := by
  rw [plain]
  split
  · exact h
  · split
    · rw [Text.printable_append_iff, Text.printable_cons_iff]
      exact ⟨h.take _, by decide, h.drop _⟩
    · rw [Text.printable_append_iff, Text.printable_cons_iff, Text.printable_cons_iff]
      exact ⟨⟨by decide, by decide, Text.printable_zeros _⟩, h⟩

theorem printable_scientific {digits : List Char} (h : Text.Printable digits) (exponent : Int) :
    Text.Printable (scientific digits exponent) := by
  rw [scientific, Text.printable_append_iff, Text.printable_append_iff]
  refine ⟨⟨h.take 1, ?_⟩, ?_⟩
  · split
    · exact Text.printable_nil
    · exact (Text.printable_cons_iff _ _).mpr ⟨by decide, h.drop 1⟩
  · split
    · exact Text.printable_nil
    · rw [Text.printable_append_iff, Text.printable_cons_iff]
      refine ⟨⟨by decide, ?_⟩, Text.printable_write _⟩
      split <;> decide

theorem printable_text (d : Decimal) : Text.Printable d.text := by
  have hDigits : Text.Printable d.coefficient := Text.printable_toDigits _
  rw [text, Text.printable_append_iff]
  constructor
  · split <;> decide
  · split
    · exact printable_plain hDigits _
    · exact printable_scientific hDigits _

theorem exists_pointed_plain {digits : List Char} (hDigits : isDigits digits = true)
    (hNonempty : digits ≠ []) (scale : Nat) :
    ∃ whole fraction, Pointed whole fraction (plain digits scale) ∧ isDigits whole = true ∧
      isDigits fraction = true ∧ whole ++ fraction ≠ [] ∧ fraction.length = scale ∧
        value (whole ++ fraction) = value digits := by
  rw [plain]
  split
  · next hNone =>
    refine ⟨digits, [], .bare _, hDigits, rfl, ?_, hNone.symm, ?_⟩ <;> rw [List.append_nil]
    exact hNonempty
  · split
    · next hShort =>
      refine ⟨_, _, .point _ _, isDigits_take hDigits _, isDigits_drop hDigits _, ?_, ?_, ?_⟩
      · rwa [List.take_append_drop]
      · rw [List.length_drop]
        omega
      · rw [List.take_append_drop]
    · next hLong =>
      refine ⟨['0'], List.replicate (scale - digits.length) '0' ++ digits, .point _ _, rfl,
        (isDigits_append_iff _ _).mpr ⟨isDigits_zeros _, hDigits⟩, List.cons_ne_nil _ _, ?_, ?_⟩
      · rw [List.length_append, List.length_replicate]
        omega
      · rw [List.singleton_append, value_zero_cons, value_zeros_append]

theorem pointed_scientific (digits : List Char) : Pointed (digits.take 1) (digits.drop 1)
    (digits.take 1 ++ if (digits.drop 1).isEmpty then [] else '.' :: digits.drop 1) := by
  split
  · next hEmpty =>
    rw [List.isEmpty_iff.mp hEmpty, List.append_nil]
    exact .bare _
  · exact .point _ _

/-- An exponent behind a numeral, left out where it is zero. -/
theorem spelledBy_append_exponent {n : PlainNumeral} {text : List Char} (h : n.SpelledBy text)
    (e : Int) : ScientificNumeral.SpelledBy ⟨n, e⟩
      (text ++ if e = 0 then [] else 'E' :: (if 0 < e then ['+'] else []) ++ write e) := by
  split
  · next hZero =>
    rw [hZero, List.append_nil]
    exact .plain h
  · refine .scientific h (.inr rfl) ?_
    split
    · next hPositive => exact ScientificNumeral.spellsInteger_plus_write hPositive
    · exact ScientificNumeral.spellsInteger_write e

theorem value_coefficient (d : Decimal) : value d.coefficient = d.unscaled.toInt.natAbs :=
  value_toDigits _

theorem exists_plain_spelledBy_text {d : Decimal} (h : 0 ≤ d.scale.toInt ∧ -6 ≤ d.adjusted) :
    ∃ n : PlainNumeral, n.SpelledBy d.text ∧ n.coefficient = d.unscaled.toInt ∧
      n.fraction.length = d.scale.toInt.toNat := by
  obtain ⟨whole, fraction, hBody, hWhole, hFraction, hSome, hLength, hSame⟩ :=
    exists_pointed_plain (isDigits_toDigits _) Nat.toDigits_ne_nil d.scale.toInt.toNat
  rw [text, if_pos h]
  exact ⟨⟨_, whole, fraction⟩, ⟨⟨hWhole, hFraction, hSome⟩, _, signed_minus_if _ _, hBody⟩,
    coefficient_eq_of_natAbs (hSame.trans d.value_coefficient), hLength⟩

/-- One digit stands before the point, and the exponent is the place of that digit. -/
theorem exists_scientific_spelledBy_text {d : Decimal} (h : ¬(0 ≤ d.scale.toInt ∧ -6 ≤ d.adjusted)) :
    ∃ n : ScientificNumeral, n.SpelledBy d.text ∧ n.mantissa.coefficient = d.unscaled.toInt ∧
      n.places = d.scale.toInt := by
  have hDigits : isDigits d.coefficient = true := isDigits_toDigits _
  have hNonempty : d.coefficient ≠ [] := Nat.toDigits_ne_nil
  have hJoined : d.coefficient.take 1 ++ d.coefficient.drop 1 = d.coefficient :=
    List.take_append_drop _ _
  have hMantissa : WellFormed ⟨decide (d.unscaled.toInt < 0), d.coefficient.take 1, d.coefficient.drop 1⟩ :=
    ⟨isDigits_take hDigits 1, isDigits_drop hDigits 1, by rwa [digits, hJoined]⟩
  rw [text, if_neg h, scientific, ← List.append_assoc]
  refine ⟨⟨_, d.adjusted⟩, spelledBy_append_exponent ⟨hMantissa, _, signed_minus_if _ _,
    pointed_scientific _⟩ _, coefficient_eq_of_natAbs ?_, ?_⟩
  · rw [hJoined, value_coefficient]
  · have hLength : 0 < d.coefficient.length := List.length_pos_iff.mpr hNonempty
    change ((d.coefficient.drop 1).length : Int) - d.adjusted = d.scale.toInt
    rw [List.length_drop, adjusted]
    omega

theorem exists_spelledBy_text (d : Decimal) : ∃ n : ScientificNumeral, n.SpelledBy d.text ∧
    n.mantissa.coefficient = d.unscaled.toInt ∧ n.places = d.scale.toInt := by
  by_cases hPlain : 0 ≤ d.scale.toInt ∧ -6 ≤ d.adjusted
  · obtain ⟨n, hn, hUnscaled, hLength⟩ := exists_plain_spelledBy_text hPlain
    refine ⟨⟨n, 0⟩, .plain hn, hUnscaled, ?_⟩
    rw [ScientificNumeral.places, hLength, Int.sub_zero, Int.toNat_of_nonneg hPlain.1]
  · exact exists_scientific_spelledBy_text hPlain

/-- The text tells the unscaled integer and the scale, and nothing else. -/
theorem text_eq_iff {d e : Decimal} :
    d.text = e.text ↔ d.unscaled = e.unscaled ∧ d.scale = e.scale := by
  constructor
  · intro h
    obtain ⟨n, hn, hUnscaled, hScale⟩ := d.exists_spelledBy_text
    obtain ⟨m, hm, heUnscaled, heScale⟩ := e.exists_spelledBy_text
    rw [← h] at hm
    obtain rfl := hn.unique hm
    exact ⟨Int128.eq_of_toInt_eq (hUnscaled.symm.trans heUnscaled),
      Int8.toInt_inj.mp (hScale.symm.trans heScale)⟩
  · intro ⟨hUnscaled, hScale⟩
    obtain ⟨p, s, n⟩ := d
    obtain ⟨q, t, m⟩ := e
    subst hUnscaled hScale
    rfl

theorem denotes_text_iff (d : Decimal) (q : ℚ) :
    ScientificNumeral.Denotes d.text q ↔ q = d.number := by
  obtain ⟨n, hn, hUnscaled, hScale⟩ := d.exists_spelledBy_text
  rw [ScientificNumeral.denotes_iff_of_spelledBy hn, ScientificNumeral.number_eq, hUnscaled, hScale, number]

/-- The text denotes the number that the decimal stands for and no other, and is that of another
decimal only where the precisions alone differ. -/
theorem text_exact :
    (∀ (d : Decimal) (q : ℚ), ScientificNumeral.Denotes d.text q ↔ q = d.number) ∧
      ∀ d e : Decimal, d.text = e.text ↔ d.unscaled = e.unscaled ∧ d.scale = e.scale :=
  ⟨denotes_text_iff, fun _ _ => text_eq_iff⟩

/-- A zero shows its scale like any other number. -/
example :
    text ⟨1, 2, ⟨0⟩⟩ = "0.00".toList ∧ text ⟨1, 0, ⟨0⟩⟩ = "0".toList ∧
      text ⟨1, -2, ⟨0⟩⟩ = "0E+2".toList ∧ text ⟨1, 8, ⟨0⟩⟩ = "0E-8".toList :=
  ⟨rfl, rfl, rfl, rfl⟩

end Bucketing.Decimal
