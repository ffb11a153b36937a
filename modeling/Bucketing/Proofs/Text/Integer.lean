import Bucketing.Proofs.Outcome
import Bucketing.Proofs.Text.ScientificNumeral

/-! # Integers read from their text

The scan of a numeral stays below its limit exactly if the whole number does. So a text is read into a
range exactly if it spells an integer of the range, with no minus sign where the range has no negative
number. In particular every integer of a range is read off its own text, which has neither blanks nor
letters.
-/
namespace Bucketing.Numeral

open PlainNumeral ScientificNumeral

theorem le_ofDigitChars (digits : List Char) (acc : Nat) :
    acc ≤ Nat.ofDigitChars 10 digits acc := by
  rw [Nat.ofDigitChars_eq_ofDigitChars_zero]
  exact Nat.le_add_right_of_le (Nat.le_mul_of_pos_left _ (Nat.pow_pos (by decide)))

theorem ofDigitChars_cons_of_digit? {c : Char} {d : Nat} (h : digit? c = some d)
    (digits : List Char) (acc : Nat) :
    Nat.ofDigitChars 10 (c :: digits) acc = Nat.ofDigitChars 10 digits (acc * 10 + d) := by
  have hValue := (value_of_digit? h).2.1
  rw [value, Nat.ofDigitChars_cons, Nat.mul_zero, Nat.zero_add] at hValue
  rw [Nat.ofDigitChars_cons, Nat.mul_comm]
  exact congrArg (fun d => Nat.ofDigitChars 10 digits (acc * 10 + d)) hValue

theorem isDigits_cons (c : Char) (digits : List Char) :
    isDigits (c :: digits) = ((digit? c).isSome && isDigits digits) := rfl

/-- What is scanned so far is never more than the number, so the limit is passed on the way exactly if
it is passed at the end. -/
theorem readDigits_eq_ok_iff {limit : Nat} {beyond : Defect} {digits : List Char} {acc n : Nat}
    (hAcc : acc ≤ limit) :
    readDigits limit beyond acc digits = .ok n ↔
      isDigits digits = true ∧ Nat.ofDigitChars 10 digits acc = n ∧ n ≤ limit := by
  induction digits generalizing acc with
  | nil =>
    rw [readDigits, Except.ok.injEq]
    constructor
    · rintro rfl
      exact ⟨rfl, rfl, hAcc⟩
    · rintro ⟨-, rfl, -⟩
      rfl
  | cons c digits ih =>
    rw [readDigits, isDigits_cons]
    cases hd : digit? c with
    | none => exact ⟨nofun, nofun⟩
    | some d =>
      rw [ofDigitChars_cons_of_digit? hd, Option.isSome_some, Bool.true_and]
      dsimp only
      split
      · next hLimit => exact ih hLimit
      · next hLimit =>
        refine ⟨nofun, ?_⟩
        rintro ⟨-, rfl, hBelow⟩
        exact absurd (Nat.le_trans (le_ofDigitChars digits _) hBelow) hLimit

/-- A numeral is read by its sign and the digits behind it. -/
theorem read_of_splitSign {low high : Int} {text : List Char} (h : (splitSign text).2 ≠ []) :
    read low high text =
      if (splitSign text).1 then
        if low < 0 then (fun n : Nat => -(n : Int)) <$> readDigits (-low).toNat .tooSmall 0 (splitSign text).2
        else .error .invalidDigit
      else (fun n : Nat => (n : Int)) <$> readDigits high.toNat .tooLarge 0 (splitSign text).2 := by
  unfold splitSign at h ⊢
  split
  · next text =>
    cases text with
    | nil => exact absurd rfl h
    | cons c text => rfl
  · next text =>
    cases text with
    | nil => exact absurd rfl h
    | cons c text => rfl
  · next hMinus hPlus =>
    unfold read
    split
    · exact absurd rfl h
    · exact absurd rfl (hPlus [])
    · exact absurd rfl (hMinus [])
    · exact absurd rfl (hPlus _)
    · exact absurd rfl (hMinus _)
    · rfl

theorem exists_read_of_splitSign_nil (low high : Int) {text : List Char}
    (h : (splitSign text).2 = []) : ∃ defect, read low high text = .error defect := by
  unfold splitSign at h
  split at h
  · subst h
    exact ⟨.invalidDigit, rfl⟩
  · subst h
    exact ⟨.invalidDigit, rfl⟩
  · subst h
    exact ⟨.empty, rfl⟩

theorem read_eq_ok_iff {low high n : Int} {text : List Char} (hLow : low ≤ 0) (hHigh : 0 ≤ high) :
    read low high text = .ok n ↔
      SpellsInteger n text ∧ low ≤ n ∧ n ≤ high ∧ ((splitSign text).1 = true → low < 0) := by
  rw [spellsInteger_iff]
  by_cases hNil : (splitSign text).2 = []
  · obtain ⟨defect, hRead⟩ := exists_read_of_splitSign_nil low high hNil
    simp [hRead, hNil]
  · rw [read_of_splitSign hNil, coefficient, digits, List.append_nil, value]
    cases (splitSign text).1 with
    | true =>
      simp only [if_true, forall_const]
      split
      · next hNegative =>
        rw [Outcome.map_eq_ok_iff]
        simp only [readDigits_eq_ok_iff (Nat.zero_le _)]
        constructor
        · rintro ⟨m, ⟨hDigits, rfl, hLimit⟩, rfl⟩
          exact ⟨⟨hDigits, hNil, rfl⟩, by omega, by omega, hNegative⟩
        · rintro ⟨⟨hDigits, -, rfl⟩, hLimit, -, -⟩
          exact ⟨_, ⟨hDigits, rfl, by omega⟩, rfl⟩
      · next hNonnegative => simp [hNonnegative]
    | false =>
      simp only [Bool.false_eq_true, if_false, false_imp_iff, and_true]
      rw [Outcome.map_eq_ok_iff]
      simp only [readDigits_eq_ok_iff (Nat.zero_le _)]
      constructor
      · rintro ⟨m, ⟨hDigits, rfl, hLimit⟩, rfl⟩
        exact ⟨⟨hDigits, hNil, rfl⟩, by omega, by omega⟩
      · rintro ⟨⟨hDigits, -, rfl⟩, -, hLimit⟩
        exact ⟨_, ⟨hDigits, rfl, by omega⟩, rfl⟩

/-- The values of a type are the integers of a range. -/
structure IsRange {α : Type} (low high : Int) (ofInt : Int → α) (toInt : α → Int) : Prop where
  zero_mem : low ≤ 0 ∧ 0 ≤ high
  toInt_mem (a : α) : low ≤ toInt a ∧ toInt a ≤ high
  ofInt_toInt (a : α) : ofInt (toInt a) = a
  toInt_ofInt {n : Int} (h : low ≤ n ∧ n ≤ high) : toInt (ofInt n) = n

theorem IsRange.read_eq_ok_iff {α : Type} {low high : Int} {ofInt : Int → α} {toInt : α → Int}
    (range : IsRange low high ofInt toInt) {text : List Char} {a : α} :
    ofInt <$> read low high text = .ok a ↔
      SpellsInteger (toInt a) text ∧ ((splitSign text).1 = true → low < 0) := by
  rw [Outcome.map_eq_ok_iff]
  simp only [Numeral.read_eq_ok_iff range.zero_mem.1 range.zero_mem.2]
  constructor
  · rintro ⟨n, ⟨hSpells, hLow, hHigh, hSign⟩, rfl⟩
    rw [range.toInt_ofInt ⟨hLow, hHigh⟩]
    exact ⟨hSpells, hSign⟩
  · rintro ⟨hSpells, hSign⟩
    have hMem := range.toInt_mem a
    exact ⟨toInt a, ⟨hSpells, hMem.1, hMem.2, hSign⟩, range.ofInt_toInt a⟩

theorem isRange_int8 : IsRange Int8.minValue.toInt Int8.maxValue.toInt Int8.ofInt Int8.toInt where
  zero_mem := by decide
  toInt_mem n := ⟨n.minValue_le_toInt, n.toInt_le⟩
  ofInt_toInt := Int8.ofInt_toInt
  toInt_ofInt h := Int8.toInt_ofInt_of_le h.1 (Int.lt_add_one_of_le h.2)

theorem isRange_int32 : IsRange Int32.minValue.toInt Int32.maxValue.toInt Int32.ofInt Int32.toInt where
  zero_mem := by decide
  toInt_mem n := ⟨n.minValue_le_toInt, n.toInt_le⟩
  ofInt_toInt := Int32.ofInt_toInt
  toInt_ofInt h := Int32.toInt_ofInt_of_le h.1 (Int.lt_add_one_of_le h.2)

theorem isRange_int64 : IsRange Int64.minValue.toInt Int64.maxValue.toInt Int64.ofInt Int64.toInt where
  zero_mem := by decide
  toInt_mem n := ⟨n.minValue_le_toInt, n.toInt_le⟩
  ofInt_toInt := Int64.ofInt_toInt
  toInt_ofInt h := Int64.toInt_ofInt_of_le h.1 (Int.lt_add_one_of_le h.2)

theorem isRange_uint8 : IsRange 0 255 (fun n => UInt8.ofNat n.toNat) fun n => (n.toNat : Int) where
  zero_mem := by decide
  toInt_mem n := by
    have hHigh := n.toNat_lt
    omega
  ofInt_toInt n := by rw [Int.toNat_natCast, UInt8.ofNat_toNat]
  toInt_ofInt h := by
    rw [UInt8.toNat_ofNat']
    omega

theorem readInt8_eq_ok_iff {text : List Char} {n : Int8} :
    readInt8 text = .ok n ↔ SpellsInteger n.toInt text :=
  isRange_int8.read_eq_ok_iff.trans (and_iff_left fun _ => by decide)

theorem readInt32_eq_ok_iff {text : List Char} {n : Int32} :
    readInt32 text = .ok n ↔ SpellsInteger n.toInt text :=
  isRange_int32.read_eq_ok_iff.trans (and_iff_left fun _ => by decide)

theorem readInt64_eq_ok_iff {text : List Char} {n : Int64} :
    readInt64 text = .ok n ↔ SpellsInteger n.toInt text :=
  isRange_int64.read_eq_ok_iff.trans (and_iff_left fun _ => by decide)

theorem nonpos_of_spellsInteger {n : Int} {text : List Char} (h : SpellsInteger n text)
    (hSign : (splitSign text).1 = true) : n ≤ 0 := by
  rw [((spellsInteger_iff n text).mp h).2.2, coefficient, if_pos hSign]
  omega

/-- A positive number has no minus sign. -/
theorem readUInt8_eq_ok_iff {text : List Char} {n : UInt8} (hn : 1 ≤ n.toNat) :
    readUInt8 text = .ok n ↔ SpellsInteger n.toNat text := by
  rw [readUInt8, isRange_uint8.read_eq_ok_iff]
  refine and_iff_left_of_imp fun hSpells hSign => ?_
  have hNonpos := nonpos_of_spellsInteger hSpells hSign
  omega

theorem readInt32_write (n : Int32) : readInt32 (write n.toInt) = .ok n :=
  readInt32_eq_ok_iff.mpr (spellsInteger_write n.toInt)

theorem readInt64_write (n : Int64) : readInt64 (write n.toInt) = .ok n :=
  readInt64_eq_ok_iff.mpr (spellsInteger_write n.toInt)

theorem any_isBlank_write (n : Int) : (write n).any Text.isBlank = false := by
  rw [write, List.any_append, Text.any_isBlank_of_isDigits (isDigits_toDigits n.natAbs)]
  split <;> rfl

theorem lower_write (n : Int) : Text.lower (write n) = write n := by
  apply Text.lower_eq_self
  intro c hc
  rw [write, List.mem_append] at hc
  rcases hc with hSign | hDigit
  · split at hSign
    · cases List.mem_singleton.mp hSign
      rfl
    · cases hSign
  · exact Text.toLower_of_isDigit (Nat.isDigit_of_mem_toDigits (by decide) (by decide) hDigit)

end Bucketing.Numeral
