import Bucketing.Value.Reading
import Bucketing.Proofs.Int128

/-! # What a reading decides

A reading of a decimal accepts or refuses, and what it accepts has a result. Its steps are put
together by one rule each for a sequence, a choice and a loop over characters, and steps that are not
checked have to be shown to have a result. So no reading that decides something overflows.
-/
namespace Bucketing.Decimal

variable {α β : Type}

def Decides (x : Except Stop α) (accepts : Prop) (post : α → Prop) : Prop :=
  match x with
  | .ok a => accepts ∧ post a
  | .error .refused => ¬accepts
  | .error .overflow => False

namespace Decides

variable {x : Except Stop α} {f : α → Except Stop β} {A B : Prop} {P : α → Prop} {Q : β → Prop}

theorem ok {a : α} (hA : A) (h : P a) : Decides (.ok a) A P := ⟨hA, h⟩

theorem refused (hA : ¬A) : Decides (.error .refused) A P := hA

theorem imp {P' : α → Prop} (h : Decides x A P) (hA : A ↔ B) (hP : ∀ a, A → P a → P' a) :
    Decides x B P' := by
  match x with
  | .ok a => exact ⟨hA.mp h.1, hP a h.1 h.2⟩
  | .error .refused => exact fun hB => h (hA.mpr hB)
  | .error .overflow => exact h

theorem bind (hx : Decides x A P) (hf : ∀ a, A → P a → Decides (f a) B Q) :
    Decides (x >>= f) (A ∧ B) Q := by
  match x with
  | .ok a => exact (hf a hx.1 hx.2).imp (and_iff_right hx.1).symm fun _ _ => id
  | .error .refused => exact fun h => hx h.1
  | .error .overflow => exact hx

theorem bind_of_true (hx : Decides x True P) (hf : ∀ a, P a → Decides (f a) B Q) :
    Decides (x >>= f) B Q :=
  (hx.bind fun a _ => hf a).imp (and_iff_right trivial) fun _ _ => id

theorem map {g : α → β} (hx : Decides x A P) (hg : ∀ a, P a → Q (g a)) :
    Decides (x >>= fun a => pure (g a)) A Q :=
  (hx.bind fun a _ ha => ok trivial (hg a ha)).imp (and_iff_left trivial) fun _ _ => id

theorem ne_overflow (h : Decides x A P) : x ≠ .error .overflow := by
  rintro rfl
  exact h

theorem of_eq_ok (h : Decides x A P) {a : α} (hx : x = .ok a) : A ∧ P a := by
  subst hx
  exact h

theorem exists_ok (h : Decides x A P) (hA : A) : ∃ a, x = .ok a ∧ P a := by
  match x with
  | .ok a => exact ⟨a, rfl, h.2⟩
  | .error .refused => exact absurd hA h
  | .error .overflow => exact absurd h id

/-- What is accepted of a text is accepted of its beginnings, and each character leads from what the
state holds of one beginning to what it holds of the next. -/
theorem foldlM {σ : Type} {step : σ → Char → Except Stop σ} {F : List Char → Prop}
    {H : List Char → σ → Prop}
    (hStep : ∀ s before c, F before → H before s →
      Decides (step s c) (F (before ++ [c])) (H (before ++ [c])))
    (hBefore : ∀ before after, F (before ++ after) → F before)
    {s : σ} {before : List Char} (hFits : F before) (hs : H before s) (text : List Char) :
    Decides (text.foldlM step s) (F (before ++ text)) (H (before ++ text)) := by
  induction text generalizing s before with
  | nil =>
    rw [List.append_nil]
    exact ⟨hFits, hs⟩
  | cons c text ih =>
    have hSplit : before ++ c :: text = before ++ [c] ++ text := by simp
    rw [hSplit, List.foldlM_cons]
    refine ((hStep s before c hFits hs).bind fun s' hFits' hs' => ih hFits' hs').imp ?_ fun _ _ => id
    exact and_iff_right_of_imp (hBefore _ _)

end Decides

theorem decides_checked {r : Option α} {A : Prop} (h : r.isSome = true ↔ A) :
    Decides (checked r) A (r = some ·) := by
  cases r with
  | none => exact fun hA => Bool.false_ne_true (h.mpr hA)
  | some a => exact ⟨h.mp rfl, rfl⟩

theorem decides_unchecked {r : Option α} {P : α → Prop} (h : ∃ a, r = some a ∧ P a) :
    Decides (unchecked r) True P := by
  obtain ⟨a, rfl, ha⟩ := h
  exact .ok trivial ha

theorem decides_checked_int128 (n : Int) :
    Decides (checked (Int128.ofInt? n)) (Int128.InRange n) (·.toInt = n) :=
  (decides_checked (Int128.isSome_ofInt?_iff n)).imp Iff.rfl
    fun x _ => (Int128.ofInt?_eq_some_iff n x).mp

theorem decides_checked_byte (n : Nat) : Decides (checked (byte? n)) (n < 256) (·.toNat = n) := by
  rw [byte?]
  by_cases h : n < UInt8.size
  · rw [if_pos h]
    exact ⟨h, UInt8.toNat_ofNat_of_lt h⟩
  · rw [if_neg h]
    exact h

theorem decides_unchecked_int8 {n : Int} (hLow : -128 ≤ n) (hHigh : n ≤ 127) :
    Decides (unchecked (int8? n)) True (·.toInt = n) := by
  have hRange : Int8.minValue.toInt ≤ n ∧ n ≤ Int8.maxValue.toInt := ⟨hLow, hHigh⟩
  rw [int8?, if_pos hRange]
  exact .ok trivial (Int8.toInt_ofInt_of_le hLow (by omega))

end Bucketing.Decimal
