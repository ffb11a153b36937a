import Bucketing.Text.Basic
import Mathlib.Data.List.TakeWhile

/-! # Blanks and letter case

A text without blanks is left as it is where blanks are cut off, and blanks around a text do not change
what is left of it. No letter is a blank, so the case of letters has no part in this.
-/
namespace Bucketing.Text

theorem lower_eq_self {text : List Char} (h : ∀ c ∈ text, c.toLower = c) : lower text = text := by
  rw [lower, List.map_congr_left h, List.map_id']

theorem lower_cons (c : Char) (text : List Char) : lower (c :: text) = c.toLower :: lower text :=
  List.map_cons

theorem lower_append (a b : List Char) : lower (a ++ b) = lower a ++ lower b := List.map_append

theorem toLower_of_not_upper {c : Char} (h : ¬(c.val ≥ 'A'.val ∧ c.val ≤ 'Z'.val)) : c.toLower = c :=
  dif_neg h

theorem toNat_toLower_of_upper {c : Char} (h : c.val ≥ 'A'.val ∧ c.val ≤ 'Z'.val) :
    c.toLower.toNat = c.toNat + 32 := by
  have hHigh : c.val.toNat ≤ 90 := h.2
  have hLower : c.toLower.val = c.val + 32 := congrArg Char.val (dif_pos h)
  have hValue : c.toLower.val.toNat = (c.val.toNat + 32) % 2 ^ 32 := by
    rw [hLower, UInt32.toNat_add]
    rfl
  rwa [Nat.mod_eq_of_lt (by omega)] at hValue

theorem isBlank_eq_false_of_visible {c : Char} (h : 33 ≤ c.toNat ∧ c.toNat ≤ 126) : isBlank c = false := by
  simp only [isBlank, Bool.or_eq_false_iff, Bool.and_eq_false_iff, decide_eq_false_iff_not, beq_eq_false_iff_ne]
  omega

theorem isBlank_toLower (c : Char) : isBlank c.toLower = isBlank c := by
  by_cases h : c.val ≥ 'A'.val ∧ c.val ≤ 'Z'.val
  · have hLow : 65 ≤ c.toNat := h.1
    have hHigh : c.toNat ≤ 90 := h.2
    have hLower := toNat_toLower_of_upper h
    rw [isBlank_eq_false_of_visible (by omega), isBlank_eq_false_of_visible (by omega)]
  · rw [toLower_of_not_upper h]

theorem any_isBlank_lower (text : List Char) : (lower text).any isBlank = text.any isBlank := by
  rw [lower, List.any_map]
  exact congrArg text.any (funext isBlank_toLower)

theorem dropWhile_isBlank_eq_self {text : List Char} (h : text.any isBlank = false) :
    text.dropWhile isBlank = text := by
  cases text with
  | nil => rfl
  | cons c text =>
    rw [List.any_cons, Bool.or_eq_false_iff] at h
    exact List.dropWhile_cons_of_neg (by simp [h.1])

theorem trim_eq_self {text : List Char} (h : text.any isBlank = false) : trim text = text := by
  have hReverse : text.reverse.any isBlank = false := by rwa [List.any_reverse]
  rw [trim, dropBlanksRight, dropWhile_isBlank_eq_self h, dropWhile_isBlank_eq_self hReverse,
    List.reverse_reverse]

theorem mem_trim {c : Char} {text : List Char} (h : c ∈ text) (hBlank : isBlank c = false) : c ∈ trim text := by
  have hDrop (text : List Char) (h : c ∈ text) : c ∈ text.dropWhile isBlank := by
    rw [← List.takeWhile_append_dropWhile (p := isBlank) (l := text), List.mem_append] at h
    refine h.resolve_left fun hTake => ?_
    rw [List.mem_takeWhile_imp hTake] at hBlank
    cases hBlank
  rw [trim, dropBlanksRight, List.mem_reverse]
  exact hDrop _ (List.mem_reverse.mpr (hDrop text h))

section Surrounded

variable {before after : List Char}

theorem dropBlanksRight_append (h : after.all isBlank = true) (text : List Char) :
    dropBlanksRight (text ++ after) = dropBlanksRight text := by
  have hReverse : after.reverse.all isBlank = true := by rwa [List.all_reverse]
  rw [dropBlanksRight, List.reverse_append, List.dropWhile_append_of_pos (List.all_eq_true.mp hReverse),
    dropBlanksRight]

theorem trim_append (hBefore : before.all isBlank = true) (hAfter : after.all isBlank = true)
    (text : List Char) : trim (before ++ text ++ after) = trim text := by
  rw [trim, List.append_assoc, List.dropWhile_append_of_pos (List.all_eq_true.mp hBefore),
    List.dropWhile_append, trim]
  split
  · next hEmpty =>
    -- nothing but blanks, so those behind the text go together with it
    rw [List.isEmpty_iff.mp hEmpty, List.dropWhile_eq_nil_iff.mpr (List.all_eq_true.mp hAfter)]
  · exact dropBlanksRight_append hAfter _

end Surrounded

end Bucketing.Text
