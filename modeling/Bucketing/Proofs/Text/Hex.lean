import Bucketing.Proofs.Text.Numeral
import Bucketing.Text.Hex

/-! # Bytes read from their hexadecimal text

The digits are written in lower case. A text is read exactly if it is pairs of digits, and as the bytes
whose text it is, but for case. A reader that keeps its buffer from one text to the next reads each as
it reads it alone.
-/
namespace Bucketing.Hex

theorem encode_inj {a b : List UInt8} : encode a = encode b ↔ a = b := by
  constructor
  · intro h
    have hDecode := congrArg decode h
    rw [decode_encode, decode_encode] at hDecode
    exact Option.some.inj hDecode
  · rintro rfl
    rfl

theorem length_encode (bytes : List UInt8) : (encode bytes).length = 2 * bytes.length := by
  induction bytes with
  | nil => rfl
  | cons b bytes ih =>
    rw [encode, List.length_cons, List.length_cons, ih, List.length_cons]
    omega

theorem exists_digit_of_mem_encode {bytes : List UInt8} {c : Char} (h : c ∈ encode bytes) :
    ∃ n < 16, c = digit n := by
  induction bytes with
  | nil => cases h
  | cons b bytes ih =>
    have hByte := b.toNat_lt
    rw [encode, List.mem_cons, List.mem_cons] at h
    rcases h with rfl | rfl | h
    · exact ⟨_, by omega, rfl⟩
    · exact ⟨_, by omega, rfl⟩
    · exact ih h

theorem printable_digit : ∀ n < 16, ' ' < digit n := by
  decide

theorem toLower_digit : ∀ n < 16, (digit n).toLower = digit n := by
  decide

theorem digit_ne : ∀ n < 16, digit n ≠ 'x' ∧ digit n ≠ '{' ∧ digit n ≠ 'u' := by
  decide

theorem printable_encode (bytes : List UInt8) : Text.Printable (encode bytes) := by
  intro c hc
  obtain ⟨n, hn, rfl⟩ := exists_digit_of_mem_encode hc
  exact printable_digit n hn

/-- The digits in either case. -/
def digits : List Char := "0123456789abcdefABCDEF".toList

theorem lt_of_mem_digits {c : Char} (h : c ∈ digits) : c.toNat < 128 := by
  have hAll : ∀ i (hi : i < digits.length), digits[i].toNat < 128 := by decide
  obtain ⟨i, hi, rfl⟩ := List.getElem_of_mem h
  exact hAll i hi

theorem exists_digit?_of_mem_digits {c : Char} (h : c ∈ digits) :
    ∃ n < 16, digit? c = some (UInt8.ofNat n) ∧ digit n = c.toLower := by
  have hAll : ∀ i (hi : i < digits.length),
      ∃ n < 16, digit? digits[i] = some (UInt8.ofNat n) ∧ digit n = digits[i].toLower := by decide
  obtain ⟨i, hi, rfl⟩ := List.getElem_of_mem h
  exact hAll i hi

theorem ofNat_mem_digits : ∀ n < 103,
    48 ≤ n ∧ n ≤ 57 ∨ 97 ≤ n ∧ n ≤ 102 ∨ 65 ≤ n ∧ n ≤ 70 → Char.ofNat n ∈ digits := by
  decide

theorem mem_digits_of_digit? {c : Char} {d : UInt8} (h : digit? c = some d) : c ∈ digits := by
  have hRange : 48 ≤ c.toNat ∧ c.toNat ≤ 57 ∨ 97 ≤ c.toNat ∧ c.toNat ≤ 102 ∨
      65 ≤ c.toNat ∧ c.toNat ≤ 70 := by
    unfold digit? at h
    split at h
    · next hRange => exact .inl hRange
    · split at h
      · next hRange => exact .inr (.inl hRange)
      · split at h
        · next hRange => exact .inr (.inr hRange)
        · cases h
  rw [← c.ofNat_toNat]
  exact ofNat_mem_digits c.toNat (by omega) hRange

theorem toLower_of_digit? {c : Char} {d : UInt8} (h : digit? c = some d) :
    d.toNat < 16 ∧ digit d.toNat = c.toLower := by
  obtain ⟨n, hn, hDigit, hLower⟩ := exists_digit?_of_mem_digits (mem_digits_of_digit? h)
  rw [hDigit, Option.some.injEq] at h
  have hValue : d.toNat = n := by
    rw [← h, UInt8.toNat_ofNat']
    omega
  rw [hValue]
  exact ⟨hn, hLower⟩

theorem encode_cons {h l : UInt8} (hHigh : h.toNat < 16) (hLow : l.toNat < 16) (bytes : List UInt8) :
    encode ((h * 16 + l) :: bytes) = digit h.toNat :: digit l.toNat :: encode bytes := by
  have hByte : (h * 16 + l).toNat = h.toNat * 16 + l.toNat := by
    simp only [UInt8.toNat_add, UInt8.toNat_mul, UInt8.reduceToNat]
    omega
  have hDiv : (h.toNat * 16 + l.toNat) / 16 = h.toNat := by omega
  have hMod : (h.toNat * 16 + l.toNat) % 16 = l.toNat := by omega
  rw [encode, hByte, hDiv, hMod]

theorem decode_cons_cons_eq_some_iff {high low : Char} {text : List Char} {bytes : List UInt8} :
    decode (high :: low :: text) = some bytes ↔
      ∃ h l rest, digit? high = some h ∧ digit? low = some l ∧ decode text = some rest ∧
        bytes = (h * 16 + l) :: rest := by
  simp only [decode, Option.bind_eq_bind, Option.bind_eq_some_iff]
  constructor
  · rintro ⟨h, hHigh, l, hLow, rest, hRest, ⟨⟩⟩
    exact ⟨h, l, rest, hHigh, hLow, hRest, rfl⟩
  · rintro ⟨h, l, rest, hHigh, hLow, hRest, rfl⟩
    exact ⟨h, hHigh, l, hLow, rest, hRest, rfl⟩

/-- Pairs of digits, in either case. -/
def IsPairs (text : List Char) : Prop := text.length % 2 = 0 ∧ ∀ c ∈ text, c ∈ digits

theorem isPairs_cons_cons_iff {high low : Char} {text : List Char} :
    IsPairs (high :: low :: text) ↔ high ∈ digits ∧ low ∈ digits ∧ IsPairs text := by
  have hLength : (high :: low :: text).length % 2 = text.length % 2 := Nat.add_mod_right text.length 2
  rw [IsPairs, IsPairs, hLength, List.forall_mem_cons, List.forall_mem_cons, and_left_comm,
    @and_left_comm (text.length % 2 = 0)]

theorem exists_decode : {text : List Char} → IsPairs text → ∃ bytes, decode text = some bytes
  | [], _ => ⟨[], rfl⟩
  | [_], h => absurd h.1 Nat.one_ne_zero
  | high :: low :: text, h => by
    obtain ⟨hHigh, hLow, hText⟩ := isPairs_cons_cons_iff.mp h
    obtain ⟨n, -, hn, -⟩ := exists_digit?_of_mem_digits hHigh
    obtain ⟨m, -, hm, -⟩ := exists_digit?_of_mem_digits hLow
    obtain ⟨bytes, hBytes⟩ := exists_decode hText
    exact ⟨_, decode_cons_cons_eq_some_iff.mpr ⟨_, _, bytes, hn, hm, hBytes, rfl⟩⟩

theorem encode_of_decode : {text : List Char} → {bytes : List UInt8} → decode text = some bytes →
    IsPairs text ∧ encode bytes = Text.lower text
  | [], _, h => by
    cases h
    exact ⟨⟨rfl, nofun⟩, rfl⟩
  | [_], _, h => by cases h
  | high :: low :: text, _, h => by
    obtain ⟨h, l, rest, hHigh, hLow, hRest, rfl⟩ := decode_cons_cons_eq_some_iff.mp h
    obtain ⟨hPairs, hLower⟩ := encode_of_decode hRest
    obtain ⟨hh, hHighLower⟩ := toLower_of_digit? hHigh
    obtain ⟨hl, hLowLower⟩ := toLower_of_digit? hLow
    refine ⟨isPairs_cons_cons_iff.mpr ⟨mem_digits_of_digit? hHigh, mem_digits_of_digit? hLow, hPairs⟩, ?_⟩
    rw [encode_cons hh hl, hHighLower, hLowLower, hLower]
    rfl

end Bucketing.Hex
