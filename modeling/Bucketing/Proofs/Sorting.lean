import Bucketing.Sorting
import Mathlib.Data.List.Induction

/-! # Sorted lists without repetitions

Where no element comes before itself in two ways, each element of a sorted list comes before none of
those to its left. Elements told apart by their keys are then in strictly ascending order, so that
the list depends on nothing but its members. A list without repetitions has one like each element.
-/
namespace Bucketing.Sorting

variable {α β : Type}

theorem map_insertDescending (f : α → β) (before : β → β → Bool) (x : α) (ys : List α) :
    (insertDescending (fun a b => before (f a) (f b)) x ys).map f =
      insertDescending before (f x) (ys.map f) := by
  induction ys with
  | nil => rfl
  | cons y ys ih =>
    rw [insertDescending, List.map_cons, insertDescending]
    split
    · rw [List.map_cons, ih]
    · rfl

theorem map_sort (f : α → β) (before : β → β → Bool) (xs : List α) :
    (sort (fun a b => before (f a) (f b)) xs).map f = sort before (xs.map f) := by
  rw [sort, List.map_reverse, sortDescending, sort, sortDescending, List.foldl_map]
  apply congrArg List.reverse
  exact (List.foldl_hom (List.map f) fun sorted x => (map_insertDescending f before x sorted).symm).symm

theorem sort_eq_self {before : α → α → Bool} {xs : List α}
    (h : xs.Pairwise fun a b => before b a = false) : sort before xs = xs := by
  have hReverse : sortDescending before xs = xs.reverse := by
    induction xs using List.reverseRecOn with
    | nil => rfl
    | append_singleton xs x ih =>
      obtain ⟨hSorted, -, hLast⟩ := List.pairwise_append.mp h
      rw [sortDescending, List.foldl_append, List.foldl_cons, List.foldl_nil, ← sortDescending,
        ih hSorted, List.reverse_append, List.reverse_singleton, List.singleton_append]
      -- nothing is passed on the way from the right
      cases hLeft : xs.reverse with
      | nil => rfl
      | cons y ys =>
        have hy : y ∈ xs := List.mem_reverse.mp (hLeft ▸ List.mem_cons_self)
        rw [insertDescending, hLast y hy x List.mem_cons_self]
        rfl
  rw [sort, hReverse, List.reverse_reverse]

section Order

variable {before : α → α → Bool} (hAsymm : ∀ x y, before x y = true → before y x = false)
  (hTrans : ∀ x y z, before x y = false → before y z = false → before x z = false)

include hAsymm hTrans

theorem pairwise_insertDescending (x : α) {ys : List α}
    (h : ys.Pairwise fun a b => before a b = false) :
    (insertDescending before x ys).Pairwise fun a b => before a b = false := by
  induction ys with
  | nil => exact List.pairwise_singleton _ x
  | cons y ys ih =>
    obtain ⟨hHead, hTail⟩ := List.pairwise_cons.mp h
    rw [insertDescending]
    split
    · next hBefore =>
      refine List.pairwise_cons.mpr ⟨?_, ih hTail⟩
      intro z hz
      rcases List.mem_cons.mp ((insertDescending_perm before x ys).mem_iff.mp hz) with rfl | hz
      · exact hAsymm z y hBefore
      · exact hHead z hz
    · next hBefore =>
      rw [Bool.not_eq_true] at hBefore
      refine List.pairwise_cons.mpr ⟨?_, h⟩
      intro z hz
      rcases List.mem_cons.mp hz with rfl | hz
      · exact hBefore
      · exact hTrans x y z hBefore (hHead z hz)

theorem pairwise_sort (xs : List α) : (sort before xs).Pairwise fun a b => before b a = false := by
  rw [sort, List.pairwise_reverse]
  apply List.foldlRecOn xs _ List.Pairwise.nil
  intro sorted h x _
  exact pairwise_insertDescending hAsymm hTrans x h

end Order

section Key

variable {κ : Type} [LE κ] [LT κ] [Std.IsLinearOrder κ] [Std.LawfulOrderLT κ] [DecidableLT κ]

theorem pairwise_le_sort_key (key : α → κ) (xs : List α) :
    (sort (fun x y => key x < key y) xs).Pairwise fun x y => key x ≤ key y := by
  have hSorted : (sort (fun x y => decide (key x < key y)) xs).Pairwise fun x y =>
      decide (key y < key x) = false := by
    apply pairwise_sort
    · intro x y h
      exact decide_eq_false (Std.not_lt.mpr (Std.le_of_lt (of_decide_eq_true h)))
    · intro x y z hxy hyz
      rw [decide_eq_false_iff_not, Std.not_lt] at hxy hyz ⊢
      exact Std.le_trans hyz hxy
  apply hSorted.imp
  intro x y h
  exact Std.not_lt.mp (of_decide_eq_false h)

theorem pairwise_lt_sort_key {key : α → κ} {xs : List α} (h : (xs.map key).Nodup) :
    (sort (fun x y => key x < key y) xs).Pairwise fun x y => key x < key y := by
  have hKeys : ((sort (fun x y => key x < key y) xs).map key).Nodup :=
    ((sort_perm _ xs).map key).nodup_iff.mpr h
  have hBoth := List.pairwise_and_iff.mpr ⟨pairwise_le_sort_key key xs, List.pairwise_map.mp hKeys⟩
  apply hBoth.imp
  rintro x y ⟨hLe, hNe⟩
  exact Std.lt_of_le_of_ne hLe hNe

/-- What is sorted by different keys does not depend on its former order. -/
theorem sort_key_congr {key : α → κ} {xs ys : List α} (h : (xs.map key).Nodup) (hPerm : xs.Perm ys) :
    sort (fun x y => key x < key y) xs = sort (fun x y => key x < key y) ys := by
  have hOther : (ys.map key).Nodup := (hPerm.map key).nodup_iff.mp h
  apply List.Perm.eq_of_pairwise _ (pairwise_lt_sort_key h) (pairwise_lt_sort_key hOther)
  · exact (sort_perm _ xs).trans (hPerm.trans (sort_perm _ ys).symm)
  · intro x y _ _ hxy hyx
    exact absurd hyx (Std.not_lt.mpr (Std.le_of_lt hxy))

end Key

section Distinct

variable {same : α → α → Bool}

theorem map_distinct (f : β → α) (xs : List β) :
    (distinct (fun x y => same (f x) (f y)) xs).map f = distinct same (xs.map f) := by
  induction xs using List.reverseRecOn with
  | nil => rfl
  | append_singleton xs x ih =>
    have hAny : (distinct same (xs.map f)).any (same · (f x)) =
        (distinct (fun x y => same (f x) (f y)) xs).any fun y => same (f y) (f x) := by
      rw [← ih, List.any_map]
      rfl
    rw [List.map_append, List.map_singleton, distinct_append_singleton, distinct_append_singleton, hAny]
    split
    · exact ih
    · rw [List.map_append, ih, List.map_singleton]

theorem pairwise_distinct (xs : List α) : (distinct same xs).Pairwise fun x y => same x y = false := by
  induction xs using List.reverseRecOn with
  | nil => exact .nil
  | append_singleton xs x ih =>
    rw [distinct_append_singleton]
    split
    · exact ih
    · next hAny =>
      rw [Bool.not_eq_true, List.any_eq_false] at hAny
      refine List.pairwise_append.mpr ⟨ih, List.pairwise_singleton _ x, ?_⟩
      intro y hy z hz
      rw [List.mem_singleton.mp hz, ← Bool.not_eq_true]
      exact hAny y hy

theorem distinct_eq_self {xs : List α} (h : xs.Pairwise fun x y => same x y = false) :
    distinct same xs = xs := by
  induction xs using List.reverseRecOn with
  | nil => rfl
  | append_singleton xs x ih =>
    obtain ⟨hInit, -, hLast⟩ := List.pairwise_append.mp h
    have hNone : ¬xs.any (same · x) = true := by
      rw [List.any_eq_true]
      rintro ⟨y, hy, hSame⟩
      cases (hLast y hy x List.mem_cons_self).symm.trans hSame
    rw [distinct_append_singleton, ih hInit, if_neg hNone]

theorem exists_same_of_mem (same : α → α → Bool) {xs : List α} {x : α} (h : x ∈ xs) :
    ∃ y ∈ distinct same xs, y = x ∨ same y x = true := by
  induction xs using List.reverseRecOn with
  | nil => cases h
  | append_singleton xs z ih =>
    rw [distinct_append_singleton]
    rcases List.mem_append.mp h with h | h
    · obtain ⟨y, hy, hSame⟩ := ih h
      refine ⟨y, ?_, hSame⟩
      split
      · exact hy
      · exact List.mem_append_left _ hy
    · obtain rfl := List.mem_singleton.mp h
      split
      · next hAny =>
        obtain ⟨y, hy, hSame⟩ := List.any_eq_true.mp hAny
        exact ⟨y, hy, .inr hSame⟩
      · exact ⟨x, List.mem_append_right _ (List.mem_singleton_self x), .inl rfl⟩

theorem mem_distinct_iff {xs : List α} (hSame : ∀ x ∈ xs, ∀ y ∈ xs, same x y = true → x = y) (x : α) :
    x ∈ distinct same xs ↔ x ∈ xs := by
  refine ⟨mem_of_mem_distinct same xs x, fun h => ?_⟩
  obtain ⟨y, hy, rfl | hyx⟩ := exists_same_of_mem same h
  · exact hy
  · rwa [← hSame y (mem_of_mem_distinct same xs y hy) x h hyx]

end Distinct

end Bucketing.Sorting
