import Bucketing.Predicate.Evaluation
import Bucketing.Proofs.Sorting
import Bucketing.Proofs.Value.Hash

/-! # What the normal form of literals keeps

A literal is dropped where another one repeats it: the same value, a float of the same value or a
record that compares equal. Whatever is dropped therefore fits the same types and has the same hash as
what is kept. So do two literals of one type that compare equal or are both a NaN, and sets of such
literals have the same hashes.
-/
namespace Bucketing

namespace Value

/-- Decimals compare across precisions and scales. All other values that compare fit the same types. -/
theorem fits_eq_of_tryCompare {v w : Value} {o : Option Ordering} (h : v.tryCompare w = .ok o)
    (hDecimal : v.kind? ≠ some .decimal) (t : ColumnType) : v.fits t = w.fits t := by
  cases sameKind_of_tryCompare h with
  | decimal d e => exact absurd rfl hDecimal
  | record a b =>
    cases t with
    | record fields => rw [fits, fits, fields_eq_of_tryCompare h]
    | _ => rfl
  | _ => cases t <;> rfl

/-- Equal, or both a NaN. -/
def Alike (v w : Value) : Prop :=
  v.tryCompare w = .ok (some .eq) ∨ (v.isNaN = true ∧ w.isNaN = true)

theorem Alike.hash_eq {v w : Value} {t : ColumnType} (h : v.Alike w) (hvMade : v.wellMade = true)
    (hwMade : w.wellMade = true) (hv : v.fits t = true) (hw : w.fits t = true) : v.hash = w.hash := by
  rcases h with hEqual | ⟨hvNaN, hwNaN⟩
  · apply hash_eq_of_tryCompare_eq hvMade hwMade hEqual
    rintro d e rfl rfl
    exact scale_eq_of_fits hv hw
  · rw [hash_of_isNaN hvNaN, hash_of_isNaN hwNaN]

end Value

namespace Literals

variable {v w : Value}

theorem eq_or_equal_of_same (h : same v w = true) :
    v = w ∨ (v.tryCompare w = .ok (some .eq) ∧ v.kind? ≠ some .decimal) := by
  cases v with
  | float32 x =>
    cases w with
    | float32 y =>
      rw [same, Value.equal, Floating.equal_eq_true_iff] at h
      · rw [Value.tryCompare, h]
        exact .inr ⟨rfl, nofun⟩
      · nofun
    | _ => cases h
  | float64 x =>
    cases w with
    | float64 y =>
      rw [same, Value.equal, Floating.equal_eq_true_iff] at h
      · rw [Value.tryCompare, h]
        exact .inr ⟨rfl, nofun⟩
      · nofun
    | _ => cases h
  | record a =>
    cases w with
    | record b =>
      rw [same] at h
      split at h
      · next hEqual => exact .inr ⟨hEqual, nofun⟩
      · cases h
    | _ => cases h
  | _ => cases w <;> simp_all [same, Value.equal]

theorem fits_eq_of_same (h : same v w = true) (t : ColumnType) : v.fits t = w.fits t := by
  rcases eq_or_equal_of_same h with rfl | ⟨hEqual, hDecimal⟩
  · rfl
  · exact Value.fits_eq_of_tryCompare hEqual hDecimal t

theorem hash_eq_of_same (hv : v.wellMade = true) (hw : w.wellMade = true) (h : same v w = true) :
    v.hash = w.hash := by
  rcases eq_or_equal_of_same h with rfl | ⟨hEqual, hDecimal⟩
  · rfl
  · apply Value.hash_eq_of_tryCompare_eq hv hw hEqual
    rintro d e rfl -
    exact absurd rfl hDecimal

theorem exists_same_of_mem_normalize {vs : List Value} (h : v ∈ vs) :
    ∃ w ∈ normalize vs, w = v ∨ same w v = true := by
  obtain ⟨w, hw, hSame⟩ := Sorting.exists_same_of_mem same h
  refine ⟨w, ?_, hSame⟩
  simp only [normalize]
  split
  · exact (Sorting.mem_sort_iff _ _ _).mpr hw
  · exact hw

variable {vs ws : List Value} {t : ColumnType}

theorem fits_of_mem (h : ∀ w ∈ normalize vs, w.fits t = true) (hv : v ∈ vs) : v.fits t = true := by
  obtain ⟨w, hw, rfl | hSame⟩ := exists_same_of_mem_normalize hv
  · exact h w hw
  · rw [← fits_eq_of_same hSame]
    exact h w hw

/-- The hashes of the literals that are kept are those of all literals, and alike literals share one. -/
theorem exists_hash_eq_of_alike (hvs : ∀ v ∈ vs, v.wellMade = true) (hws : ∀ w ∈ ws, w.wellMade = true)
    (hvFits : ∀ v ∈ normalize vs, v.fits t = true) (hwFits : ∀ w ∈ normalize ws, w.fits t = true)
    (hAlike : ∀ v ∈ vs, ∃ w ∈ ws, v.Alike w) :
    ∀ v ∈ normalize vs, ∃ w ∈ normalize ws, v.hash = w.hash := by
  intro v hv
  have hMem := mem_of_mem_normalize vs v hv
  obtain ⟨w, hw, hvw⟩ := hAlike v hMem
  have hHash := hvw.hash_eq (hvs v hMem) (hws w hw) (hvFits v hv) (fits_of_mem hwFits hw)
  obtain ⟨u, hu, rfl | hSame⟩ := exists_same_of_mem_normalize hw
  · exact ⟨u, hu, hHash⟩
  · -- `w` was dropped, and what was kept in its place has its hash.
    have huMade := hws u (mem_of_mem_normalize ws u hu)
    exact ⟨u, hu, hHash.trans (hash_eq_of_same huMade (hws w hw) hSame).symm⟩

end Literals

end Bucketing
