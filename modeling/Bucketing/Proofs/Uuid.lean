import Bucketing.Proofs.Text.Hex
import Bucketing.Uuid
import Mathlib.Algebra.Ring.Nat

/-! # Identifiers read back from their text

Cutting the digits into groups and joining the groups again gives back the digits. The text is longer
than the bare digits and starts with a digit, so it is read as groups without braces or a prefix.
-/
namespace Bucketing.Uuid

theorem unhyphenate?_hyphenate {lengths : List Nat} (h : lengths ≠ []) {digits : List Char}
    (hLength : digits.length = lengths.sum) :
    unhyphenate? lengths (hyphenate lengths digits) = some digits := by
  induction lengths generalizing digits with
  | nil => exact absurd rfl h
  | cons n lengths ih =>
    cases lengths with
    | nil =>
      rw [List.sum_singleton] at hLength
      exact if_pos hLength
    | cons m lengths =>
      have hSum : (n :: m :: lengths).sum = n + (m :: lengths).sum := List.sum_cons
      have hTake : (digits.take n).length = n := by
        rw [List.length_take]
        omega
      have hDrop : (digits.drop n).length = (m :: lengths).sum := by
        rw [List.length_drop]
        omega
      change unhyphenate? (n :: m :: lengths)
        (digits.take n ++ '-' :: hyphenate (m :: lengths) (digits.drop n)) = _
      rw [unhyphenate?, List.drop_left' hTake, List.take_left' hTake]
      · change (unhyphenate? (m :: lengths) _).map _ = _
        rw [ih (List.cons_ne_nil m lengths) hDrop, Option.map_some, List.take_append_drop]
      · exact List.cons_ne_nil m lengths

theorem length_hyphenate (n : Nat) (lengths : List Nat) (digits : List Char) :
    (hyphenate (n :: lengths) digits).length = digits.length + lengths.length := by
  induction lengths generalizing n digits with
  | nil => rfl
  | cons m lengths ih =>
    change (digits.take n ++ '-' :: hyphenate (m :: lengths) (digits.drop n)).length = _
    rw [List.length_append, List.length_cons, ih, List.length_take, List.length_drop, List.length_cons]
    omega

theorem mem_hyphenate {lengths : List Nat} {digits : List Char} {c : Char}
    (h : c ∈ hyphenate lengths digits) : c ∈ digits ∨ c = '-' := by
  induction lengths generalizing digits with
  | nil => exact .inl h
  | cons n lengths ih =>
    cases lengths with
    | nil => exact .inl h
    | cons m lengths =>
      change c ∈ digits.take n ++ '-' :: hyphenate (m :: lengths) (digits.drop n) at h
      rw [List.mem_append, List.mem_cons] at h
      rcases h with h | rfl | h
      · exact .inl (List.mem_of_mem_take h)
      · exact .inr rfl
      · exact (ih h).imp_left List.mem_of_mem_drop

theorem digit_or_hyphen_of_mem_text {u : Uuid} {c : Char} (h : c ∈ u.text) :
    (∃ n < 16, c = Hex.digit n) ∨ c = '-' :=
  (mem_hyphenate h).imp_left Hex.exists_digit_of_mem_encode

theorem printable_text (u : Uuid) : Text.Printable u.text := by
  intro c hc
  rcases digit_or_hyphen_of_mem_text hc with ⟨n, hn, rfl⟩ | rfl
  · exact Hex.printable_digit n hn
  · decide

theorem unwrap?_cons {c : Char} (hBrace : c ≠ '{') (hUrn : c.toLower ≠ 'u') (text : List Char) :
    unwrap? (c :: text) = some (c :: text) := by
  have hPrefix : Text.lower ((c :: text).take 9) ≠ "urn:uuid:".toList := by
    intro h
    rw [List.take_succ_cons, Text.lower_cons] at h
    exact hUrn (List.cons.inj h).1
  unfold unwrap?
  split
  · next hText => exact absurd (List.cons.inj hText).1 hBrace
  · rw [if_neg hPrefix]

theorem exists_text_eq_cons (u : Uuid) : ∃ n < 16, ∃ rest, u.text = Hex.digit n :: rest := by
  obtain ⟨bytes, hLength⟩ := u
  cases bytes with
  | nil => cases hLength
  | cons b bytes =>
    have hByte := b.toNat_lt
    exact ⟨b.toNat / 16, by omega, _, rfl⟩

theorem read_text (u : Uuid) : read u.text = some u := by
  have hDigits : (Hex.encode u.bytes).length = groups.sum := by
    rw [Hex.length_encode, u.length_bytes]
    rfl
  have hLength : u.text.length ≠ 32 := by
    rw [text, groups, length_hyphenate, hDigits]
    decide
  have hUnwrap : unwrap? u.text = some u.text := by
    obtain ⟨n, hn, rest, hText⟩ := u.exists_text_eq_cons
    obtain ⟨-, hBrace, hUrn⟩ := Hex.digit_ne n hn
    rw [← Hex.toLower_digit n hn] at hUrn
    rw [hText]
    exact unwrap?_cons hBrace hUrn rest
  have hGroups : unhyphenate? groups u.text = some (Hex.encode u.bytes) :=
    unhyphenate?_hyphenate (by decide) hDigits
  have hBytes : ofBytes? u.bytes = some u := by rw [ofBytes?, dif_pos u.length_bytes]
  simp [read, hLength, hUnwrap, hGroups, Hex.decode_encode, hBytes]

theorem text_eq_iff {u v : Uuid} : u.text = v.text ↔ u = v := by
  constructor
  · intro h
    have hRead := congrArg read h
    rw [read_text, read_text] at hRead
    exact Option.some.inj hRead
  · rintro rfl
    rfl

end Bucketing.Uuid
