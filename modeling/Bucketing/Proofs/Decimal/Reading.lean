import Bucketing.Proofs.Decimal.Decides
import Bucketing.Proofs.Text.PlainNumeral

/-! # Which texts are read as decimals

A tally holds the digits that were read as a number, with their count less the leading zeros. One
digit keeps this, so all digits of a text do, and scaling and the final check are made on known
numbers. Nothing leaves its width but what is checked: the counts stay below the width of a byte
since a number of 128 bits has at most 39 digits and a scale at most 127 places.
-/
namespace Bucketing.Decimal

open Int128 (InRange)
open Numeral

namespace Tally

structure Counts (whole fraction : List Char) (t : Tally) : Prop where
  unscaled : t.unscaled.toInt = value (whole ++ fraction)
  digits : t.digits.toNat = (stripZeros whole).length + fraction.length
  decimals : t.decimals.toInt = fraction.length
  seenDigit : t.seenDigit = !(whole ++ fraction).isEmpty

def WholeFits (whole : List Char) : Prop := isDigits whole = true ∧ InRange (value whole)

def FractionFits (scale : Int8) (whole fraction : List Char) : Prop :=
  isDigits fraction = true ∧ fraction.length ≤ scale.toInt.toNat ∧ InRange (value (whole ++ fraction))

/-- How many zeros a scale appends to a number with digits behind the point. -/
def placesUp (scale : Int8) (fraction : List Char) : Nat := scale.toInt.toNat - fraction.length

/-- How many zeros a scale takes off. -/
def placesDown (scale : Int8) : Nat := (-scale.toInt).toNat

structure Scalable (scale : Int8) (whole fraction : List Char) : Prop where
  down : InRange (10 ^ placesDown scale : Nat)
  dvd : 10 ^ placesDown scale ∣ value (whole ++ fraction)
  up : InRange (10 ^ placesUp scale fraction : Nat)
  inRange : InRange (value (whole ++ fraction) * 10 ^ placesUp scale fraction : Nat)

structure Scaled (scale : Int8) (whole fraction : List Char) (t : Tally) : Prop where
  unscaled : t.unscaled.toInt * (10 ^ placesDown scale : Nat) =
    (value (whole ++ fraction) * 10 ^ placesUp scale fraction : Nat)
  digits : t.digits.toNat = (stripZeros whole).length + scale.toInt.toNat - placesDown scale

theorem Scaled.nonneg {scale : Int8} {whole fraction : List Char} {t : Tally}
    (h : Scaled scale whole fraction t) : 0 ≤ t.unscaled.toInt := by
  have hPos : 0 < ((10 ^ placesDown scale : Nat) : Int) := Int.natCast_pos.mpr (Nat.pow_pos (by decide))
  refine Int.nonneg_of_mul_nonneg_left ?_ hPos
  rw [h.unscaled]
  exact Int.natCast_nonneg _

theorem length_stripZeros_le {whole : List Char} (h : WholeFits whole) :
    (stripZeros whole).length ≤ 39 := by
  rw [length_stripZeros_le_iff h.1]
  have hRange := h.2.2
  omega

theorem counts_empty : Counts [] [] empty := ⟨rfl, rfl, rfl, rfl⟩

theorem wholeFits_nil : WholeFits [] := ⟨rfl, by decide⟩

theorem decides_push (t : Tally) {d : Nat} (hd : d < 10) :
    Decides (t.push d)
      (t.digits.toNat + 1 < 256 ∧ InRange (t.unscaled.toInt * 10) ∧ InRange (t.unscaled.toInt * 10 + d))
      fun u => u.digits.toNat = t.digits.toNat + 1 ∧ u.unscaled.toInt = t.unscaled.toInt * 10 + d ∧
        u.decimals = t.decimals ∧ u.seenDigit = true := by
  have hTen : (⟨10⟩ : Int128).toInt = 10 := rfl
  have hDigit : (⟨.ofNat 128 d⟩ : Int128).toInt = d := by
    change (BitVec.ofNat 128 d).toInt = d
    rw [BitVec.toInt_ofNat']
    apply Int.bmod_eq_of_le <;> omega
  refine (decides_checked_byte _).bind fun digits _ hDigits => ?_
  have hShift : Decides (checked (t.unscaled.mul? ⟨10⟩)) (InRange (t.unscaled.toInt * 10))
      (·.toInt = t.unscaled.toInt * 10) := hTen ▸ decides_checked_int128 _
  refine hShift.bind fun shifted _ hShifted => ?_
  have hAdd : Decides (checked (shifted.add? ⟨.ofNat 128 d⟩)) (InRange (t.unscaled.toInt * 10 + d))
      (·.toInt = t.unscaled.toInt * 10 + d) := by
    refine (decides_checked_int128 _).imp ?_ fun x _ hx => ?_
    · rw [hShifted, hDigit]
    · rw [hx, hShifted, hDigit]
  exact hAdd.map fun unscaled hUnscaled => ⟨hDigits, hUnscaled, rfl, rfl⟩

theorem isDigits_of_digit? {c : Char} {d : Nat} (hd : digit? c = some d) {digits : List Char}
    (h : isDigits digits = true) : isDigits (digits ++ [c]) = true :=
  (isDigits_append_singleton_iff digits c).mpr ⟨h, (value_of_digit? hd).1⟩

theorem not_isDigits_of_digit? {c : Char} (hd : digit? c = none) (digits : List Char) :
    ¬isDigits (digits ++ [c]) = true := by
  intro h
  have hc := ((isDigits_append_singleton_iff digits c).mp h).2
  rw [(digit?_eq_none_iff c).mp hd] at hc
  cases hc

/-- A leading zero changes neither the number nor the count. -/
theorem counts_leadingZero {t : Tally} {whole : List Char} (hFits : WholeFits whole)
    (ht : t.Counts whole []) (hNone : t.digits = 0) :
    WholeFits (whole ++ ['0']) ∧ Counts (whole ++ ['0']) [] { t with seenDigit := true } := by
  have hStrip : stripZeros whole = [] := by
    have hCount := ht.digits
    rw [hNone] at hCount
    exact List.length_eq_zero_iff.mp hCount.symm
  have hZero : value whole < 10 ^ 0 := (length_stripZeros_le_iff hFits.1 0).mp (by rw [hStrip]; rfl)
  have hSame : value (whole ++ ['0']) = value whole := by
    rw [value_append_singleton, show value ['0'] = 0 from rfl]
    omega
  refine ⟨⟨isDigits_of_digit? rfl hFits.1, by rw [hSame]; exact hFits.2⟩, ?_, ?_, ht.decimals, ?_⟩
  · rw [List.append_nil, hSame, ← List.append_nil whole]
    exact ht.unscaled
  · rw [stripZeros_append_singleton, if_pos ⟨hStrip, rfl⟩]
    exact congrArg UInt8.toNat hNone
  · simp

theorem decides_pushWhole {t : Tally} {whole : List Char} {c : Char} {d : Nat}
    (hd : digit? c = some d) (hFits : WholeFits whole) (ht : t.Counts whole [])
    (hSignificant : ¬(t.digits = 0 ∧ d = 0)) :
    Decides (t.push d) (WholeFits (whole ++ [c])) (Counts (whole ++ [c]) []) := by
  have hUnscaled : t.unscaled.toInt = value whole := by rw [ht.unscaled, List.append_nil]
  have hCount : t.digits.toNat = (stripZeros whole).length := ht.digits
  have hNext : value (whole ++ [c]) = value whole * 10 + d := by
    rw [value_append_singleton, (value_of_digit? hd).2.1]
  have hStrip : stripZeros (whole ++ [c]) = stripZeros whole ++ [c] := by
    rw [stripZeros_append_singleton, if_neg]
    rintro ⟨hEmpty, rfl⟩
    cases hd
    refine hSignificant ⟨UInt8.toNat_inj.mp ?_, rfl⟩
    rw [hCount, hEmpty]
    rfl
  refine (t.decides_push (value_of_digit? hd).2.2).imp ?_ ?_
  · have hLength := length_stripZeros_le hFits
    rw [hCount, hUnscaled]
    simp only [WholeFits, InRange, isDigits_of_digit? hd hFits.1, hNext, true_and]
    omega
  · rintro u - ⟨hDigits, hNumber, hDecimals, hSeen⟩
    refine ⟨?_, ?_, by rw [hDecimals]; exact ht.decimals, ?_⟩
    · rw [hNumber, hUnscaled, List.append_nil, hNext]
      norm_cast
    · rw [hDigits, hCount, hStrip, List.length_append]
      rfl
    · rw [hSeen]
      simp

theorem decides_addWhole {t : Tally} {whole : List Char} (c : Char) (hFits : WholeFits whole)
    (ht : t.Counts whole []) :
    Decides (t.addWhole c) (WholeFits (whole ++ [c])) (Counts (whole ++ [c]) []) := by
  rw [addWhole]
  cases hd : digit? c with
  | none => exact .refused fun h => not_isDigits_of_digit? hd whole h.1
  | some d =>
    dsimp only
    split
    · next hLeading =>
      obtain ⟨hNone, rfl⟩ := hLeading
      obtain rfl := (digit?_eq_some_zero_iff c).mp hd
      obtain ⟨hFits', ht'⟩ := counts_leadingZero hFits ht hNone
      exact .ok hFits' ht'
    · next hSignificant => exact decides_pushWhole hd hFits ht hSignificant

theorem decides_pushFraction {t : Tally} {scale : Int8} {whole fraction : List Char} {c : Char}
    {d : Nat} (hd : digit? c = some d) (hWhole : WholeFits whole)
    (hFits : FractionFits scale whole fraction) (ht : t.Counts whole fraction) {decimals : Int8}
    (hDecimals : decimals.toInt = t.decimals.toInt + 1) (hRoom : fraction.length < scale.toInt) :
    Decides (push { t with decimals } d) (FractionFits scale whole (fraction ++ [c]))
      (Counts whole (fraction ++ [c])) := by
  have hNext : value (whole ++ (fraction ++ [c])) = value (whole ++ fraction) * 10 + d := by
    rw [← List.append_assoc, value_append_singleton, (value_of_digit? hd).2.1]
  refine (decides_push { t with decimals } (value_of_digit? hd).2.2).imp ?_ ?_
  · have hLength := length_stripZeros_le hWhole
    have hMax := scale.toInt_lt
    simp only [FractionFits, InRange, isDigits_of_digit? hd hFits.1, hNext, ht.digits, ht.unscaled,
      true_and, List.length_append, List.length_singleton]
    omega
  · rintro u - ⟨hDigits, hNumber, hSame, hSeen⟩
    refine ⟨?_, ?_, ?_, ?_⟩
    · rw [hNumber, ht.unscaled, hNext]
      norm_cast
    · rw [hDigits, ht.digits, List.length_append]
      rfl
    · rw [hSame, hDecimals, ht.decimals, List.length_append]
      rfl
    · rw [hSeen]
      simp

theorem decides_addFraction {t : Tally} {scale : Int8} {whole fraction : List Char} (c : Char)
    (hWhole : WholeFits whole) (hFits : FractionFits scale whole fraction)
    (ht : t.Counts whole fraction) :
    Decides (t.addFraction scale c) (FractionFits scale whole (fraction ++ [c]))
      (Counts whole (fraction ++ [c])) := by
  rw [addFraction]
  cases hd : digit? c with
  | none => exact .refused fun h => not_isDigits_of_digit? hd fraction h.1
  | some d =>
    have hDecimals := ht.decimals
    have hMax := scale.toInt_lt
    dsimp only
    split
    · next hFull =>
      refine .refused fun h => ?_
      have hRoom := h.2.1
      rw [Int8.le_iff_toInt_le] at hFull
      rw [List.length_append, List.length_singleton] at hRoom
      omega
    · next hRoom =>
      rw [Int8.le_iff_toInt_le, Int.not_le, hDecimals] at hRoom
      have hSum : Decides (unchecked (int8? (t.decimals.toInt + 1))) True
          (·.toInt = t.decimals.toInt + 1) :=
        decides_unchecked_int8 (by omega) (by omega)
      exact hSum.bind_of_true fun decimals hSucc => decides_pushFraction hd hWhole hFits ht hSucc hRoom

theorem FractionFits.of_append {scale : Int8} {whole before after : List Char}
    (h : FractionFits scale whole (before ++ after)) : FractionFits scale whole before := by
  obtain ⟨hDigits, hLength, hRange⟩ := h
  rw [List.length_append] at hLength
  rw [← List.append_assoc] at hRange
  exact ⟨((isDigits_append_iff _ _).mp hDigits).1, Nat.le_of_add_right_le hLength,
    hRange.of_le (value_le_value_append _ _)⟩

theorem WholeFits.of_append {before after : List Char} (h : WholeFits (before ++ after)) :
    WholeFits before :=
  ⟨((isDigits_append_iff _ _).mp h.1).1, h.2.of_le (value_le_value_append _ _)⟩

theorem decides_ofDigits (scale : Int8) (whole fraction : List Char) :
    Decides (ofDigits scale whole fraction) (WholeFits whole ∧ FractionFits scale whole fraction)
      (Counts whole fraction) := by
  have hWhole := Decides.foldlM (F := WholeFits) (H := fun before => Counts before [])
    (fun _ _ c hFits ht => decides_addWhole c hFits ht) (fun _ _ => WholeFits.of_append) wholeFits_nil
    counts_empty whole
  refine hWhole.bind fun t hFits ht => ?_
  rw [List.nil_append] at hFits ht
  have hNil : FractionFits scale whole [] := ⟨rfl, Nat.zero_le _, by rw [List.append_nil]; exact hFits.2⟩
  exact Decides.foldlM (F := FractionFits scale whole) (H := Counts whole)
    (fun _ _ c h ht => decides_addFraction c hFits h ht) (fun _ _ => FractionFits.of_append) hNil ht
    fraction

theorem decides_pow10 (places : Nat) :
    Decides (checked (Int128.pow10? places)) (InRange (10 ^ places : Nat))
      (·.toInt = (10 ^ places : Nat)) :=
  decides_checked_int128 _

theorem decides_shiftUp (places : UInt8) (t : Tally) :
    Decides (t.shiftUp places)
      (InRange (10 ^ places.toNat : Nat) ∧ InRange (t.unscaled.toInt * (10 ^ places.toNat : Nat)) ∧
        t.digits.toNat + places.toNat < 256)
      fun u => u.unscaled.toInt = t.unscaled.toInt * (10 ^ places.toNat : Nat) ∧
        u.digits.toNat = t.digits.toNat + places.toNat := by
  refine (decides_pow10 _).bind fun factor _ hFactor => ?_
  rw [← hFactor]
  refine (decides_checked_int128 _).bind fun unscaled _ hUnscaled => ?_
  exact (decides_checked_byte _).map fun digits hDigits => ⟨hUnscaled, hDigits⟩

theorem decides_shiftDown (places : UInt8) {t : Tally} (ht : 0 ≤ t.unscaled.toInt) :
    Decides (t.shiftDown places)
      (InRange (10 ^ places.toNat : Nat) ∧ ((10 ^ places.toNat : Nat) : Int) ∣ t.unscaled.toInt)
      fun u => u.unscaled.toInt * (10 ^ places.toNat : Nat) = t.unscaled.toInt ∧
        u.digits.toNat = t.digits.toNat - places.toNat ∧ u.decimals = t.decimals := by
  refine (decides_pow10 _).bind fun divisor _ hDivisor => ?_
  have hPos : 0 < divisor.toInt := by
    rw [hDivisor]
    exact_mod_cast Nat.pow_pos (by decide)
  rw [← hDivisor]
  refine (decides_unchecked (Int128.exists_rem?_eq_some ht hPos)).bind_of_true
    fun remainder hRemainder => ?_
  rw [hRemainder]
  split
  · next hDvd =>
    refine ((decides_unchecked (Int128.exists_div?_eq_some ht hPos)).map fun unscaled hUnscaled => ?_).imp
      (iff_of_true trivial (Int.dvd_of_emod_eq_zero hDvd)) fun _ _ => id
    exact ⟨by rw [hUnscaled, Int.ediv_mul_cancel (Int.dvd_of_emod_eq_zero hDvd)],
      UInt8.toNat_ofNat_of_lt (Nat.lt_of_le_of_lt (Nat.sub_le _ _) t.digits.toNat_lt), rfl⟩
  · next hDvd => exact .refused fun h => hDvd (Int.emod_eq_zero_of_dvd h)

theorem decides_toScale_of_neg {t : Tally} {scale : Int8} {whole fraction : List Char}
    (hScale : scale.toInt < 0) (hFits : FractionFits scale whole fraction) (ht : t.Counts whole fraction) :
    Decides (t.toScale scale) (Scalable scale whole fraction) (Scaled scale whole fraction) := by
  have hMin := scale.le_toInt
  have hDown : (UInt8.ofNat scale.toInt.natAbs).toNat = placesDown scale := by
    rw [UInt8.toNat_ofNat_of_lt' (by change _ < 256; omega), placesDown]
    omega
  have hUp : placesUp scale fraction = 0 := by
    rw [placesUp]
    omega
  have hSame : value (whole ++ fraction) * 10 ^ placesUp scale fraction = value (whole ++ fraction) := by
    rw [hUp, Nat.pow_zero, Nat.mul_one]
  have hShift := decides_shiftDown (.ofNat scale.toInt.natAbs) (t := t) (by rw [ht.unscaled]; omega)
  rw [hDown, ht.unscaled, Int.natCast_dvd_natCast] at hShift
  rw [toScale, if_pos (Int8.lt_iff_toInt_lt.mpr hScale)]
  refine (hShift.bind (B := True) (Q := Scaled scale whole fraction) fun u _ hu => ?_).imp ?_
    fun _ _ => id
  · -- the zeros are off, and there is no fraction for which some would be appended
    have hDecimals := ht.decimals
    have hWithin : ¬u.decimals < scale := by
      rw [hu.2.2, Int8.lt_iff_toInt_lt]
      omega
    simp only [hWithin, if_false]
    refine .ok trivial ⟨by rw [hu.1, hSame], ?_⟩
    rw [hu.2.1, ht.digits]
    have hPlaces := hFits.2.1
    omega
  · rw [and_true]
    refine ⟨fun ⟨hRange, hDvd⟩ => ⟨hRange, hDvd, ?_, ?_⟩, fun h => ⟨h.down, h.dvd⟩⟩
    · rw [hUp]
      decide
    · rw [hSame]
      exact hFits.2.2

theorem placesDown_of_nonneg {scale : Int8} (h : 0 ≤ scale.toInt) : placesDown scale = 0 := by
  rw [placesDown]
  omega

theorem scalable_iff_of_nonneg {scale : Int8} (h : 0 ≤ scale.toInt) (whole fraction : List Char) :
    Scalable scale whole fraction ↔ InRange (10 ^ placesUp scale fraction : Nat) ∧
      InRange (value (whole ++ fraction) * 10 ^ placesUp scale fraction : Nat) := by
  refine ⟨fun h => ⟨h.up, h.inRange⟩, fun ⟨hUp, hRange⟩ => ⟨?_, ?_, hUp, hRange⟩⟩
  · rw [placesDown_of_nonneg h]
    decide
  · rw [placesDown_of_nonneg h]
    exact Nat.one_dvd _

theorem scaled_of_nonneg {t : Tally} {scale : Int8} {whole fraction : List Char} (h : 0 ≤ scale.toInt)
    (hUnscaled : t.unscaled.toInt = (value (whole ++ fraction) * 10 ^ placesUp scale fraction : Nat))
    (hDigits : t.digits.toNat = (stripZeros whole).length + scale.toInt.toNat) :
    Scaled scale whole fraction t := by
  constructor
  · rw [hUnscaled, placesDown_of_nonneg h, Nat.pow_zero, Nat.cast_one, mul_one]
  · rw [hDigits, placesDown_of_nonneg h, Nat.sub_zero]

theorem decides_toScale_of_nonneg {t : Tally} {scale : Int8} {whole fraction : List Char}
    (hScale : 0 ≤ scale.toInt) (hWhole : WholeFits whole) (hFits : FractionFits scale whole fraction)
    (ht : t.Counts whole fraction) :
    Decides (t.toScale scale) (Scalable scale whole fraction) (Scaled scale whole fraction) := by
  have hMax := scale.toInt_lt
  have hPlaces := hFits.2.1
  have hDecimals := ht.decimals
  have hLength := length_stripZeros_le hWhole
  rw [toScale, if_neg fun h => Int.not_lt.mpr hScale (Int8.lt_iff_toInt_lt.mp h)]
  change Decides (if t.decimals < scale then _ else _) _ _
  split
  · next hShort =>
    rw [Int8.lt_iff_toInt_lt, hDecimals] at hShort
    have hDifference : Decides (unchecked (int8? (scale.toInt - t.decimals.toInt))) True
        (·.toInt = scale.toInt - t.decimals.toInt) := decides_unchecked_int8 (by omega) (by omega)
    refine hDifference.bind_of_true fun places hAppend => ?_
    have hUp : places.toUInt8.toNat = placesUp scale fraction := by
      have hNonneg : 0 ≤ places := Int8.le_iff_toInt_le.mpr (by rw [hAppend]; change 0 ≤ _; omega)
      rw [Int8.toNat_toUInt8_of_le hNonneg, placesUp]
      change places.toInt.toNat = _
      omega
    have hShift := t.decides_shiftUp places.toUInt8
    rw [hUp, ht.unscaled, ht.digits, ← Nat.cast_mul] at hShift
    refine hShift.imp ?_ fun u _ hu => scaled_of_nonneg hScale hu.1 ?_
    · rw [scalable_iff_of_nonneg hScale, and_congr_right_iff]
      exact fun _ => and_iff_left (by rw [placesUp]; omega)
    · rw [hu.2, placesUp]
      omega
  · next hFull =>
    rw [Int8.lt_iff_toInt_lt, hDecimals] at hFull
    have hUp : placesUp scale fraction = 0 := by
      rw [placesUp]
      omega
    refine .ok ((scalable_iff_of_nonneg hScale whole fraction).mpr ?_) (scaled_of_nonneg hScale ?_ ?_)
    · rw [hUp, Nat.pow_zero, Nat.mul_one]
      exact ⟨by decide, hFits.2.2⟩
    · rw [hUp, Nat.pow_zero, Nat.mul_one, ht.unscaled]
    · rw [ht.digits]
      omega

/-- Below zero the scale takes zeros off; otherwise it appends as many as the fraction is short. -/
theorem decides_toScale {t : Tally} {scale : Int8} {whole fraction : List Char}
    (hWhole : WholeFits whole) (hFits : FractionFits scale whole fraction)
    (ht : t.Counts whole fraction) :
    Decides (t.toScale scale) (Scalable scale whole fraction) (Scaled scale whole fraction) := by
  rcases Int.lt_or_le scale.toInt 0 with hScale | hScale
  · exact decides_toScale_of_neg hScale hFits ht
  · exact decides_toScale_of_nonneg hScale hWhole hFits ht

theorem decides_finish (precision : UInt8) (negative : Bool) {t : Tally} (ht : 0 ≤ t.unscaled.toInt) :
    Decides (t.finish precision negative) (t.digits.toNat ≤ precision.toNat)
      (·.toInt = if negative then -t.unscaled.toInt else t.unscaled.toInt) := by
  rw [finish]
  split
  · next hLong => exact .refused (Nat.not_le.mpr (UInt8.lt_iff_toNat_lt.mp hLong))
  · next hShort =>
    have hDigits : t.digits.toNat ≤ precision.toNat :=
      Nat.le_of_not_lt fun h => hShort (UInt8.lt_iff_toNat_lt.mpr h)
    cases negative with
    | false => exact .ok hDigits rfl
    | true =>
      have hRange : InRange (-t.unscaled.toInt) := by
        have hFits := t.unscaled.inRange_toInt
        simp only [InRange] at hFits ⊢
        omega
      exact (decides_unchecked (Int128.exists_ofInt?_eq_some hRange)).imp (iff_of_true trivial hDigits)
        fun _ _ => id

end Tally

open Tally

/-- What is asked of a numeral. The digits that count are those of the whole part without leading
zeros and all places of the scale. -/
structure Readable (precision : UInt8) (scale : Int8) (n : PlainNumeral) : Prop where
  wellFormed : n.WellFormed
  places : n.fraction.length ≤ scale.toInt.toNat
  inRange : InRange (value n.digits)
  scalable : Scalable scale n.whole n.fraction
  digits : (stripZeros n.whole).length + scale.toInt.toNat - placesDown scale ≤ precision.toNat

theorem decides_ofParts (precision : UInt8) (scale : Int8) (n : PlainNumeral) :
    Decides (ofParts precision scale n.negative n.whole n.fraction) (Readable precision scale n) fun v =>
      v.toInt * (10 ^ placesDown scale : Nat) =
        n.coefficient * (10 ^ placesUp scale n.fraction : Nat) := by
  refine ((decides_ofDigits scale n.whole n.fraction).bind (B := n.digits ≠ [] ∧
    Scalable scale n.whole n.fraction ∧
      (stripZeros n.whole).length + scale.toInt.toNat - placesDown scale ≤ precision.toNat)
    fun t hFits ht => ?_).imp ?_ fun _ _ => id
  · change Decides (if t.seenDigit = true then t.toScale scale >>= (finish precision n.negative ·)
      else .error .refused) _ _
    have hSeen : t.seenDigit = true ↔ n.digits ≠ [] := by simp [ht.seenDigit, PlainNumeral.digits]
    split
    · next hDigit =>
      refine ((decides_toScale hFits.1 hFits.2 ht).bind fun u _ hu => ?_).imp
        (and_iff_right (hSeen.mp hDigit)).symm fun _ _ => id
      refine hu.digits ▸ (decides_finish precision n.negative hu.nonneg).imp Iff.rfl fun v _ hv => ?_
      rw [hv, PlainNumeral.coefficient]
      split
      · rw [neg_mul, neg_mul, hu.unscaled, Nat.cast_mul]
        rfl
      · rw [hu.unscaled, Nat.cast_mul]
        rfl
    · next hNone => exact .refused fun h => hNone (hSeen.mpr h.1)
  · constructor
    · rintro ⟨⟨hWhole, hFraction⟩, hSome, hScalable, hDigits⟩
      exact ⟨⟨hWhole.1, hFraction.1, hSome⟩, hFraction.2.1, hFraction.2.2, hScalable, hDigits⟩
    · intro h
      exact ⟨⟨⟨h.wellFormed.whole, h.inRange.of_le (value_le_value_append _ _)⟩, h.wellFormed.fraction,
        h.places, h.inRange⟩, h.wellFormed.digits_ne_nil, h.scalable, h.digits⟩

theorem decides_parse (precision : UInt8) (scale : Int8) (text : List Char) :
    Decides (parse precision scale text) (Readable precision scale (.ofText text)) fun v =>
      v.toInt * (10 ^ placesDown scale : Nat) =
        (PlainNumeral.ofText text).coefficient *
          (10 ^ placesUp scale (PlainNumeral.ofText text).fraction : Nat) :=
  decides_ofParts precision scale (.ofText text)

end Bucketing.Decimal
