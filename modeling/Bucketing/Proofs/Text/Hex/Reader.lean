import Bucketing.Proofs.Text.Hex

/-! # Hexadecimal texts read one after the other

A reader keeps its buffer from one text to the next, and a text that it refuses may leave some bytes
there. No answer shows them: every text is read as it is read alone, which is by its pairs of digits.
-/
namespace Bucketing.Hex

theorem utf8EncodeChar_of_lt {c : Char} (h : c.toNat < 128) :
    String.utf8EncodeChar c = [UInt8.ofNat c.toNat] :=
  if_pos (Nat.le_of_lt_succ h)

/-- A character that is not of one byte has a byte beyond the digits. -/
theorem exists_mem_utf8EncodeChar {c : Char} (h : 128 ≤ c.toNat) :
    ∃ b ∈ String.utf8EncodeChar c, 128 ≤ b.toNat := by
  have hVal : ¬c.val.toNat ≤ 127 := Nat.not_le.mpr h
  unfold String.utf8EncodeChar
  dsimp only
  rw [if_neg hVal]
  -- two, three or four bytes, of which the first will do
  repeat' split
  all_goals
    refine ⟨_, List.mem_cons_self, ?_⟩
    rw [UInt8.toNat_ofNat']
    omega

theorem toNat_ofUInt8 (b : UInt8) : (Char.ofUInt8 b).toNat = b.toNat := UInt8.toNat_toUInt32 b

/-- The bytes that encode a text, each as the character of its number. -/
def codes (text : List Char) : List Char := (text.flatMap String.utf8EncodeChar).map .ofUInt8

theorem codes_cons (c : Char) (text : List Char) :
    codes (c :: text) = (String.utf8EncodeChar c).map .ofUInt8 ++ codes text := by
  rw [codes, List.flatMap_cons, List.map_append]
  rfl

theorem codes_cons_of_lt {c : Char} (h : c.toNat < 128) (text : List Char) :
    codes (c :: text) = c :: codes text := by
  have hCode : Char.ofUInt8 (UInt8.ofNat c.toNat) = c := by
    rw [← Char.toNat_inj, toNat_ofUInt8, UInt8.toNat_ofNat']
    omega
  rw [codes_cons, utf8EncodeChar_of_lt h, List.map_singleton, hCode]
  rfl

/-- A text whose bytes are all digits is the text of these. -/
theorem codes_eq_self : {text : List Char} → (∀ c ∈ codes text, c ∈ digits) → codes text = text
  | [], _ => rfl
  | c :: text, h => by
    by_cases hLt : c.toNat < 128
    · rw [codes_cons_of_lt hLt] at h ⊢
      rw [codes_eq_self fun d hd => h d (List.mem_cons_of_mem c hd)]
    · obtain ⟨b, hb, hByte⟩ := exists_mem_utf8EncodeChar (Nat.le_of_not_lt hLt)
      have hMem : Char.ofUInt8 b ∈ codes (c :: text) := by
        rw [codes_cons]
        exact List.mem_append_left _ (List.mem_map_of_mem hb)
      have hCode := lt_of_mem_digits (h _ hMem)
      rw [toNat_ofUInt8] at hCode
      omega

theorem codes_of_digits : {text : List Char} → (∀ c ∈ text, c ∈ digits) → codes text = text
  | [], _ => rfl
  | c :: text, h => by
    rw [List.forall_mem_cons] at h
    rw [codes_cons_of_lt (lt_of_mem_digits h.1), codes_of_digits h.2]

theorem decode_codes (text : List Char) : decode (codes text) = decode text := by
  by_cases h : ∀ c ∈ text, c ∈ digits
  · rw [codes_of_digits h]
  · have hText : decode text = none := by
      rw [Option.eq_none_iff_forall_ne_some]
      intro bytes hBytes
      exact h (encode_of_decode hBytes).1.2
    rw [hText, Option.eq_none_iff_forall_ne_some]
    intro bytes hBytes
    have hCodes := (encode_of_decode hBytes).1.2
    rw [codes_eq_self hCodes] at hCodes
    exact h hCodes

namespace Reader

/-- All pairs are digits exactly if they can be decoded, and then the buffer has grown by their bytes. -/
theorem pushPairs_eq (r : Reader) : (bytes : List UInt8) → bytes.length % 2 = 0 →
    (if (r.pushPairs bytes).1 then some (r.pushPairs bytes).2.buffer.toList else none) =
      (decode (bytes.map .ofUInt8)).map (r.buffer.toList ++ ·)
  | [], _ => by simp [pushPairs, decode]
  | [_], h => absurd h Nat.one_ne_zero
  | high :: low :: bytes, hEven => by
    have hRest : bytes.length % 2 = 0 := (Nat.add_mod_right bytes.length 2).symm.trans hEven
    rw [pushPairs, List.map_cons, List.map_cons, decode]
    cases digit? (.ofUInt8 high) with
    | none => rfl
    | some h =>
      cases digit? (.ofUInt8 low) with
      | none => rfl
      | some l =>
        dsimp only
        rw [pushPairs_eq _ bytes hRest]
        cases decode (bytes.map .ofUInt8) <;> simp

theorem fst_read (r : Reader) (text : List Char) : (r.read text).1 = decode (body text) := by
  rw [← decode_codes, read]
  dsimp only
  split
  · next hEven =>
    refine (pushPairs_eq _ _ hEven).trans ?_
    simp [codes]
  · next hOdd =>
    symm
    rw [Option.eq_none_iff_forall_ne_some]
    intro bytes hBytes
    have hEven := (encode_of_decode hBytes).1.1
    rw [codes, List.length_map] at hEven
    exact hOdd hEven

end Reader

theorem read_eq (text : List Char) : read text = decode (body text) := Reader.empty.fst_read text

theorem body_encode (bytes : List UInt8) : body (encode bytes) = encode bytes := by
  have hPrefix : Text.after? "0x".toList (encode bytes) = none := by
    rw [Option.eq_none_iff_forall_ne_some]
    intro rest hRest
    rw [Text.after?_eq_some_iff] at hRest
    have hMem : 'x' ∈ encode bytes := by simp [hRest]
    obtain ⟨n, hn, hDigit⟩ := exists_digit_of_mem_encode hMem
    exact (digit_ne n hn).1 hDigit.symm
  rw [body, hPrefix, Option.getD_none]

theorem read_encode (bytes : List UInt8) : read (encode bytes) = some bytes := by
  rw [read_eq, body_encode, decode_encode]

theorem exists_read_iff (text : List Char) :
    (∃ bytes, read text = some bytes) ↔ IsPairs (body text) := by
  rw [read_eq]
  exact ⟨fun ⟨_, h⟩ => (encode_of_decode h).1, exists_decode⟩

namespace Reader

theorem fst_readAll (r : Reader) (texts : List (List Char)) :
    (r.readAll texts).1 = texts.map Hex.read := by
  induction texts generalizing r with
  | nil => rfl
  | cons text texts ih =>
    rw [List.map_cons, ← ih (r.read text).2, read_eq, ← r.fst_read]
    rfl

/-- Whatever a reader has read before, it answers each of a sequence of texts as if it were the first.
A text has an answer exactly if, without an optional `0x`, it is pairs of digits, and then it is, but for
case, the text of the answered bytes. -/
theorem answers_exact :
    (∀ (r : Reader) (texts : List (List Char)), (r.readAll texts).1 = texts.map Hex.read) ∧
      ∀ text : List Char,
        ((∃ bytes, Hex.read text = some bytes) ↔
          (body text).length % 2 = 0 ∧ ∀ c ∈ body text, c ∈ digits) ∧
          ∀ bytes, Hex.read text = some bytes → encode bytes = Text.lower (body text) := by
  refine ⟨fst_readAll, fun text => ⟨exists_read_iff text, fun bytes h => ?_⟩⟩
  rw [read_eq] at h
  exact (encode_of_decode h).2

/-- A refused text leaves two bytes in the buffer, which the next answer does not show. -/
theorem answers_exact_halfway :
    (empty.read "0203zz".toList).2 = ⟨#[2, 3]⟩ ∧
      (readAll ⟨#[2, 3]⟩ ["0x04".toList, "é".toList, "0001abFF".toList]).1 =
        [some [4], none, some [0, 1, 0xab, 0xff]] ∧
      encode [0, 1, 0xab, 0xff] = Text.lower "0001abFF".toList := by
  refine ⟨by rfl, ?_, (answers_exact.2 "0001abFF".toList).2 _ (by rfl)⟩
  rw [answers_exact.1]
  rfl

end Reader

end Bucketing.Hex
