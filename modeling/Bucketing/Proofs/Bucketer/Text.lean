import Bucketing.Settings
import Bucketing.Proofs.Bucketer.Assigner
import Bucketing.Proofs.Text.Integer

/-! # Bucketers read back from their text

A text names a bucketer exactly if, but for blanks around it, it is `bucket[` and `]` around an integer
numeral, which may have blanks of its own, of a number that bucketers can have as their count. The text
that is written is one of them, also where it is stored.
-/
namespace Bucketing.Bucketer

open Numeral ScientificNumeral

theorem unwrap_eq_some_iff (text inside : List Char) :
    (Text.after? "bucket[".toList text >>= Text.before? [']']) = some inside ↔
      text = "bucket[".toList ++ inside ++ [']'] := by
  simp only [Option.bind_eq_bind, Option.bind_eq_some_iff, Text.after?_eq_some_iff, Text.before?_eq_some_iff]
  constructor
  · rintro ⟨_, rfl, rfl⟩
    rw [List.append_assoc]
  · rintro rfl
    exact ⟨_, List.append_assoc _ _ _, rfl⟩

theorem ofText_eq_ok_iff {s : String} {b : Bucketer} :
    ofText s = .ok b ↔ ∃ inside, Text.trim s.toList = "bucket[".toList ++ inside ++ [']'] ∧
      SpellsInteger b.count.toInt (Text.trim inside) := by
  simp only [← unwrap_eq_some_iff]
  rw [ofText]
  cases Text.after? "bucket[".toList (Text.trim s.toList) >>= Text.before? [']'] with
  | none => exact ⟨nofun, nofun⟩
  | some inside =>
    simp only [Outcome.bind_eq_ok_iff, Outcome.mapError_eq_ok_iff, make_eq_ok_iff, readInt32_eq_ok_iff,
      Option.some.injEq, exists_eq_left', exists_eq_right']

theorem text_eq (b : Bucketer) : b.text = "bucket[".toList ++ write b.count.toInt ++ [']'] := rfl

theorem toList_toString (b : Bucketer) : (toString b).toList = b.text := String.toList_ofList

theorem toString_eq {b : Bucketer} {n : Nat} (h : b.count.toInt = n) :
    toString b = "bucket[" ++ toString n ++ "]" := by
  have hDigits : (toString n).toList = Nat.toDigits 10 n := by
    rw [show toString n = n.repr from rfl, Nat.repr_eq_ofList_toDigits, String.toList_ofList]
  rw [← String.toList_inj, toList_toString, text_eq, h, write_natCast, String.toList_append, String.toList_append,
    hDigits]
  rfl

theorem any_isBlank_text (b : Bucketer) : b.text.any Text.isBlank = false := by
  rw [text_eq, List.any_append, List.any_append, any_isBlank_write]
  rfl

theorem ofText_toString (b : Bucketer) : ofText (toString b) = .ok b := by
  refine ofText_eq_ok_iff.mpr ⟨write b.count.toInt, ?_, ?_⟩
  · rw [toList_toString, Text.trim_eq_self b.any_isBlank_text]
    rfl
  · rw [Text.trim_eq_self (any_isBlank_write b.count.toInt)]
    exact spellsInteger_write b.count.toInt

theorem toInt_count (b : Bucketer) : 1 ≤ b.count.toInt ∧ b.count.toInt ≤ 2147483647 :=
  ⟨Int32.lt_iff_toInt_lt.mp b.count_pos, b.count.toInt_le⟩

theorem exists_count_eq {n : Int} (hLow : 1 ≤ n) (hHigh : n ≤ 2147483647) :
    ∃ b : Bucketer, b.count.toInt = n := by
  have hCount : (Int32.ofInt n).toInt = n := Int32.toInt_ofInt_of_le (by omega) (by omega)
  refine ⟨⟨.ofInt n, Int32.lt_iff_toInt_lt.mpr ?_⟩, hCount⟩
  rw [hCount]
  exact hLow

/-- Every count from one to the largest 32-bit integer makes a bucketer, whose text is the count without
leading zeros between brackets. This text, also where it is stored, is read as this bucketer, and a text
is read as a bucketer of a count exactly if, but for blanks around it and around what the brackets hold,
it has an integer numeral of the count between them. -/
theorem ofText_exact :
    (∀ n : Nat, 1 ≤ n ∧ n ≤ 2147483647 → ∃ b : Bucketer, b.count.toInt = n ∧
      toString b = "bucket[" ++ toString n ++ "]" ∧ ofText (toString b) = .ok b ∧
        b.toSerial = .string (toString b) ∧ ofSerial b.toSerial = .ok b) ∧
      ∀ (s : String) (n : Int), (∃ b, ofText s = .ok b ∧ b.count.toInt = n) ↔
        ∃ inside, Text.trim s.toList = "bucket[".toList ++ inside ++ [']'] ∧
          SpellsInteger n (Text.trim inside) ∧ 1 ≤ n ∧ n ≤ 2147483647 := by
  constructor
  · rintro n ⟨hLow, hHigh⟩
    obtain ⟨b, hCount⟩ := exists_count_eq (n := n) (by omega) (by omega)
    refine ⟨b, hCount, toString_eq hCount, b.ofText_toString, rfl, ?_⟩
    rw [toSerial, ofSerial, ofText_toString]
    rfl
  · intro s n
    constructor
    · rintro ⟨b, hRead, rfl⟩
      obtain ⟨inside, hText, hSpells⟩ := ofText_eq_ok_iff.mp hRead
      exact ⟨inside, hText, hSpells, b.toInt_count⟩
    · rintro ⟨inside, hText, hSpells, hLow, hHigh⟩
      obtain ⟨b, rfl⟩ := exists_count_eq hLow hHigh
      exact ⟨b, ofText_eq_ok_iff.mpr ⟨inside, hText, hSpells⟩, rfl⟩

/-- The largest count, and a numeral with a sign, leading zeros and blanks. -/
theorem ofText_exact_padded :
    (∃ b, ofText "bucket[2147483647]" = .ok b ∧ b.count.toInt = 2147483647) ∧
      ∃ b, ofText "\tbucket[ +0016]\n" = .ok b ∧ b.count.toInt = 16 := by
  constructor
  · obtain ⟨b, hCount, hText, hRead, -⟩ := ofText_exact.1 2147483647 (by decide)
    rw [hText] at hRead
    exact ⟨b, hRead, hCount⟩
  · refine (ofText_exact.2 "\tbucket[ +0016]\n" 16).mpr ⟨" +0016".toList, by rfl, ?_, by decide⟩
    exact .intro (.plus "0016".toList) (by decide) (by decide)

end Bucketing.Bucketer
