import Bucketing.Floating.Text
import Bucketing.Proofs.Floating.Rounding
import Bucketing.Proofs.Text.Numeral

/-! # What the text of a number denotes

The text of a finite number denotes a decimal that rounds to it, whichever way it is laid out. It has
no sign but the number's, no capital letters and no blanks.
-/
namespace Bucketing

namespace Layout

theorem eq_significant_append_zeros (digits : List Char) :
    ∃ n, digits = significant digits ++ List.replicate n '0' := by
  have hSplit := List.takeWhile_append_dropWhile (p := (· == '0')) (l := digits.reverse)
  have hZeros : digits.reverse.takeWhile (· == '0') =
      List.replicate (digits.reverse.takeWhile (· == '0')).length '0' := by
    have hAll := List.all_takeWhile (p := (· == '0')) (l := digits.reverse)
    rw [List.all_eq_true] at hAll
    exact List.eq_replicate_iff.mpr ⟨rfl, fun c hc => beq_iff_eq.mp (hAll c hc)⟩
  refine ⟨(digits.reverse.takeWhile (· == '0')).length, ?_⟩
  rw [significant, ← List.reverse_replicate, ← hZeros, ← List.reverse_append, hSplit,
    List.reverse_reverse]

end Layout

namespace Floating

theorem readCoefficient_whole {whole : List Char} (hDigits : Numeral.isDigits whole = true)
    (hNonempty : whole ≠ []) : readCoefficient whole = some ⟨Numeral.value whole, 0⟩ := by
  rw [readCoefficient, Numeral.splitPoint_of_not_mem (Numeral.not_mem_of_isDigits hDigits rfl)]
  simp [hDigits, hNonempty, show Numeral.isDigits [] = true from rfl]

theorem readCoefficient_append {whole fraction : List Char} (hWhole : Numeral.isDigits whole = true)
    (hFraction : Numeral.isDigits fraction = true) (hNonempty : whole ≠ []) :
    readCoefficient (whole ++ '.' :: fraction) =
      some ⟨Numeral.value (whole ++ fraction), -fraction.length⟩ := by
  rw [readCoefficient, Numeral.splitPoint_append (Numeral.not_mem_of_isDigits hWhole rfl)]
  simp [hWhole, hFraction, hNonempty]

theorem readExponent_write (n : Int) : readExponent (Numeral.write n) = some n := by
  have hGuard : (Numeral.isDigits (Nat.toDigits 10 n.natAbs) &&
      !(Nat.toDigits 10 n.natAbs).isEmpty) = true := by
    rw [Numeral.isDigits_toDigits, List.isEmpty_eq_false_iff.mpr Nat.toDigits_ne_nil]
    rfl
  rw [readExponent, Numeral.splitSign_write]
  dsimp only
  rw [if_pos hGuard, Numeral.value_toDigits]
  split
  · next hNeg =>
    rw [decide_eq_true_eq] at hNeg
    rw [show -(n.natAbs : Int) = n by omega]
  · next hNeg =>
    rw [decide_eq_true_eq] at hNeg
    rw [show (n.natAbs : Int) = n by omega]

theorem readScientific_of_not_mem {text : List Char} (h : 'e' ∉ text) :
    readScientific text = readCoefficient text := by
  rw [readScientific, Text.cut?_eq_none_of_not_mem h]

theorem readScientific_append {text : List Char} (h : 'e' ∉ text) (exponent : Int) {s : Scientific}
    (hRead : readCoefficient text = some s) :
    readScientific (text ++ 'e' :: Numeral.write exponent) =
      some ⟨s.coefficient, s.exponent + exponent⟩ := by
  rw [readScientific, (Text.cut?_eq_some_iff 'e' _ text _).mpr ⟨rfl, h⟩]
  simp [hRead, readExponent_write]

end Floating

namespace Layout

open Floating Numeral

/-- A positional numeral denotes its digits, times a power of ten where zeros fill up the places
before the point. -/
theorem readScientific_positional {digits : List Char} (hDigits : isDigits digits = true)
    (hNonempty : digits ≠ []) (place : Int) :
    ∃ n : Nat, readScientific (positional digits place) =
      some ⟨value digits * 10 ^ n, place + 1 - digits.length - n⟩ := by
  have hZeros := isDigits_zeros
  -- neither the digits nor the point are the mark of an exponent
  have hRead : ∀ whole fraction, isDigits whole = true → isDigits fraction = true → whole ≠ [] →
      readScientific (whole ++ '.' :: fraction) = some ⟨value (whole ++ fraction), -fraction.length⟩ := by
    intro whole fraction hWhole hFraction hWholeNonempty
    rw [readScientific_of_not_mem, readCoefficient_append hWhole hFraction hWholeNonempty]
    simp [not_mem_of_isDigits hWhole, not_mem_of_isDigits hFraction]
  by_cases hPlace : 0 ≤ place
  · by_cases hLong : place.toNat + 1 < digits.length
    · refine ⟨0, ?_⟩
      have hFraction : (digits.drop (place.toNat + 1)).isEmpty = false := by
        simp only [List.isEmpty_eq_false_iff, ne_eq, List.drop_eq_nil_iff]
        omega
      rw [positional, if_pos hPlace]
      simp only [hFraction, Nat.sub_eq_zero_of_le (Nat.le_of_lt hLong), List.replicate_zero,
        List.append_nil, Bool.false_eq_true, if_false]
      rw [hRead _ _ (isDigits_take hDigits _) (isDigits_drop hDigits _) (by simpa using hNonempty),
        List.take_append_drop, List.length_drop]
      congr 2
      · omega
      · omega
    · refine ⟨place.toNat + 1 - digits.length + 1, ?_⟩
      have hShort : digits.length ≤ place.toNat + 1 := Nat.le_of_not_lt hLong
      rw [positional, if_pos hPlace]
      simp only [List.drop_eq_nil_of_le hShort, List.take_of_length_le hShort, List.isEmpty_nil,
        if_true]
      rw [hRead _ ['0'] ((isDigits_append_iff _ _).mpr ⟨hDigits, hZeros _⟩) rfl (by simp [hNonempty]),
        List.append_assoc, ← List.replicate_succ', value_append_zeros]
      congr 2
      simp only [List.length_singleton]
      omega
  · refine ⟨0, ?_⟩
    rw [positional, if_neg hPlace]
    have h := hRead ['0'] (List.replicate (-place - 1).toNat '0' ++ digits) rfl
      ((isDigits_append_iff _ _).mpr ⟨hZeros _, hDigits⟩) (by simp)
    simp only [List.cons_append, List.nil_append] at h
    rw [List.cons_append, List.cons_append, h, value_zero_cons, value_zeros_append]
    congr 2
    · omega
    · simp only [List.length_append, List.length_replicate]
      omega

theorem readScientific_scientific {layout : Layout} (hLayout : layout.signedExponent = false)
    {digits : List Char} (hDigits : isDigits digits = true) (hNonempty : digits ≠ []) (place : Int) :
    readScientific (layout.scientific digits place) =
      some ⟨value digits, place + 1 - digits.length⟩ := by
  obtain ⟨c, rest, rfl⟩ := List.exists_cons_of_ne_nil hNonempty
  obtain ⟨hFirst, hRest⟩ := (isDigits_append_iff [c] rest).mp hDigits
  have hMark : 'e' ∉ [c] := not_mem_of_isDigits hFirst rfl
  simp only [scientific, hLayout, Bool.false_and, Bool.false_eq_true, if_false]
  rw [List.append_assoc]
  cases rest with
  | nil =>
    change readScientific ([c] ++ 'e' :: Numeral.write place) = _
    rw [readScientific_append hMark place (readCoefficient_whole hFirst hNonempty)]
    simp
  | cons d rest =>
    change readScientific ([c] ++ '.' :: d :: rest ++ 'e' :: Numeral.write place) = _
    have hMarks : 'e' ∉ [c] ++ '.' :: d :: rest := by
      simpa [not_mem_of_isDigits hRest] using hMark
    rw [readScientific_append hMarks place (readCoefficient_append hFirst hRest (by simp))]
    congr 2
    simp only [List.length_cons]
    omega

/-- The text of a decimal number denotes the same number, up to zeros at the end of the
coefficient. -/
theorem readScientific_write {layout : Layout} (hLayout : layout.signedExponent = false)
    {s : Scientific} (hs : s.coefficient ≠ 0) :
    ∃ coefficient exponent, ∃ m n : Nat, s = ⟨coefficient * 10 ^ m, exponent - m⟩ ∧
      readScientific (layout.write s) = some ⟨coefficient * 10 ^ n, exponent - n⟩ := by
  obtain ⟨c, e⟩ := s
  obtain ⟨m, hm⟩ := eq_significant_append_zeros (Nat.toDigits 10 c)
  have hDigits := isDigits_toDigits c
  have hValue := value_toDigits c
  have hLength := congrArg List.length hm
  rw [hm] at hDigits hValue
  rw [value_append_zeros] at hValue
  rw [List.length_append, List.length_replicate] at hLength
  have hSignificant := ((isDigits_append_iff _ _).mp hDigits).1
  have hNonempty : significant (Nat.toDigits 10 c) ≠ [] := by
    intro hEmpty
    rw [hEmpty] at hValue
    exact hs (hValue.symm.trans (Nat.zero_mul _))
  simp only [write]
  generalize hPlace : e + (Nat.toDigits 10 c).length - 1 = place
  generalize significant (Nat.toDigits 10 c) = digits at *
  have hExponent : e = place + 1 - digits.length - m := by omega
  have hs : (⟨c, e⟩ : Scientific) = ⟨value digits * 10 ^ m, place + 1 - digits.length - m⟩ := by
    rw [hValue, ← hExponent]
  refine ⟨value digits, place + 1 - digits.length, m, ?_⟩
  split
  · obtain ⟨n, hn⟩ := readScientific_positional hSignificant hNonempty place
    exact ⟨n, hs, hn⟩
  · refine ⟨0, hs, ?_⟩
    rw [readScientific_scientific hLayout hSignificant hNonempty]
    simp

/-- What numerals are made of besides their digits: the point, the mark of an exponent and signs. -/
def isNumeralChar (c : Char) : Bool := c.isDigit || ['.', 'e', '+', '-'].contains c

theorem isNumeralChar_of_mem_digits {digits : List Char} (h : isDigits digits = true) :
    ∀ c ∈ digits, isNumeralChar c = true := by
  intro c hc
  rw [isNumeralChar, (isDigits_iff digits).mp h c hc, Bool.true_or]

theorem isNumeralChar_of_mem_write (layout : Layout) (s : Scientific) :
    ∀ c ∈ layout.write s, isNumeralChar c = true := by
  have hDigits := isDigits_toDigits s.coefficient
  have hSignificant : isDigits (significant (Nat.toDigits 10 s.coefficient)) = true := by
    obtain ⟨n, hn⟩ := eq_significant_append_zeros (Nat.toDigits 10 s.coefficient)
    rw [hn, isDigits_append_iff] at hDigits
    exact hDigits.1
  simp only [write]
  generalize s.exponent + (Nat.toDigits 10 s.coefficient).length - 1 = place
  generalize significant (Nat.toDigits 10 s.coefficient) = digits at *
  have hAll := isNumeralChar_of_mem_digits hSignificant
  have hTake := fun n => isNumeralChar_of_mem_digits (isDigits_take hSignificant n)
  have hDrop := fun n => isNumeralChar_of_mem_digits (isDigits_drop hSignificant n)
  have hZeros := fun n => isNumeralChar_of_mem_digits (isDigits_zeros n)
  split
  · rw [positional]
    split
    · simp only [List.forall_mem_append, List.forall_mem_cons]
      refine ⟨⟨hTake _, hZeros _⟩, rfl, ?_⟩
      split
      · exact List.forall_mem_singleton.mpr rfl
      · exact hDrop _
    · simp only [List.forall_mem_append, List.forall_mem_cons]
      exact ⟨⟨rfl, rfl, hZeros _⟩, hAll⟩
  · simp only [scientific, Numeral.write, List.forall_mem_append, List.forall_mem_cons]
    refine ⟨⟨⟨hTake _, ?_⟩, rfl, ?_⟩, ?_, isNumeralChar_of_mem_digits (isDigits_toDigits _)⟩
    · split
      · exact List.forall_mem_nil _
      · exact List.forall_mem_cons.mpr ⟨rfl, hDrop _⟩
    · split
      · exact List.forall_mem_singleton.mpr rfl
      · exact List.forall_mem_nil _
    · split
      · exact List.forall_mem_singleton.mpr rfl
      · exact List.forall_mem_nil _

theorem isNumeralChar_cases {c : Char} (h : isNumeralChar c = true) :
    c.isDigit = true ∨ c = '.' ∨ c = 'e' ∨ c = '+' ∨ c = '-' := by
  simpa [isNumeralChar] using h

theorem printable_write (layout : Layout) (s : Scientific) : Text.Printable (layout.write s) := by
  intro c hc
  rcases isNumeralChar_cases (isNumeralChar_of_mem_write layout s c hc) with h | rfl | rfl | rfl | rfl
  · have hDigits : isDigits [c] = true := (isDigits_iff [c]).mpr (by simp [h])
    exact Text.printable_of_isDigits hDigits c (List.mem_singleton_self c)
  all_goals decide

theorem lower_write (layout : Layout) (s : Scientific) :
    Text.lower (layout.write s) = layout.write s := by
  apply Text.lower_eq_self
  intro c hc
  rcases isNumeralChar_cases (isNumeralChar_of_mem_write layout s c hc) with h | rfl | rfl | rfl | rfl
  · exact Text.toLower_of_isDigit h
  all_goals rfl

end Layout

namespace Floating

variable {F : Format}

/-- The text of the absolute value, of a number that is no NaN. -/
def absoluteText (x : Floating F) : List Char :=
  if x.isInfinite then "Infinity".toList
  else if x.magnitude = 0 then "0.0".toList
  else Layout.ofNumbers.write (F.shortest .greater x.magnitude)

theorem text_of_isNaN {x : Floating F} (h : x.isNaN = true) : x.text = "NaN".toList := by
  rw [text, textIn, if_pos h]

theorem text_of_not_isNaN {x : Floating F} (h : x.isNaN = false) :
    x.text = (if x.negative then ['-'] else []) ++ x.absoluteText := by
  rw [text, textIn, if_neg (by simp [h])]
  rfl

theorem printable_text (x : Floating F) : Text.Printable x.text := by
  cases h : x.isNaN with
  | true =>
    rw [text_of_isNaN h]
    decide
  | false =>
    rw [text_of_not_isNaN h, Text.printable_append_iff]
    constructor
    · split <;> decide
    · rw [absoluteText]
      split
      · decide
      · split
        · decide
        · exact Layout.printable_write _ _

/-- The text of a finite number denotes a decimal that rounds to the number. -/
theorem reads_absoluteText {x : Floating F} (h : x.isInfinite = false) :
    ∃ s, readScientific x.absoluteText = some s ∧ F.Reads s x.magnitude := by
  rw [absoluteText, if_neg (by simp [h])]
  split
  · next hZero =>
    refine ⟨⟨0, -1⟩, by decide, ?_⟩
    rw [hZero]
    exact F.reads_zero rfl
  · next hNonzero =>
    have hReads := F.reads_shortest .greater x.magnitude
    obtain ⟨c, e, m, n, hs, hRead⟩ := Layout.readScientific_write
      (show Layout.ofNumbers.signedExponent = false from rfl)
      (F.coefficient_ne_zero_of_reads hNonzero hReads)
    rw [hs, F.reads_shift_iff] at hReads
    exact ⟨_, hRead, (F.reads_shift_iff c n e _).mpr hReads⟩

theorem readScientific_of_sign {c : Char} (hc : c = '-' ∨ c = '+') (text : List Char) :
    readScientific (c :: text) = none := by
  have hCoefficient : ∀ rest, readCoefficient (c :: rest) = none := by
    intro rest
    have hPoint : (c != '.') = true := by rcases hc with rfl | rfl <;> rfl
    have hDigit : Numeral.digit? c = none := by rcases hc with rfl | rfl <;> rfl
    simp [readCoefficient, Numeral.splitPoint, Numeral.isDigits, hPoint, hDigit]
  have hMark : c ≠ 'e' := by rcases hc with rfl | rfl <;> decide
  rw [readScientific, Text.cut?, if_neg hMark]
  cases Text.cut? 'e' text with
  | none => exact hCoefficient text
  | some parts => simp [hCoefficient]

theorem absoluteText_ne_sign (x : Floating F) {c : Char} (hc : c = '-' ∨ c = '+') (text : List Char) :
    x.absoluteText ≠ c :: text := by
  intro hText
  cases h : x.isInfinite with
  | true =>
    rw [absoluteText, if_pos h] at hText
    rcases hc with rfl | rfl <;> cases hText
  | false =>
    obtain ⟨s, hRead, _⟩ := reads_absoluteText h
    rw [hText, readScientific_of_sign hc] at hRead
    cases hRead

end Floating

end Bucketing
