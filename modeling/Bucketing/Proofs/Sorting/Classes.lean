import Bucketing.Proofs.Sorting
import Mathlib.Data.List.Forall2

/-! # Lists up to what is the same

Where `same` is symmetric and transitive, which elements of a list are dropped as repetitions can be
read off the list itself, and how many of a class are kept does not depend on their order. Sorted
lists with equally many elements in each place of the order agree place by place.
-/
namespace Bucketing.Sorting

variable {α : Type}

/-- The elements that are not the same as one before them. -/
def unrepeated (same : α → α → Bool) (xs : List α) : List α :=
  (xs.zipIdx.filter fun c => !(xs.take c.2).any (same · c.1)).map Prod.fst

theorem unrepeated_append_singleton (same : α → α → Bool) (xs : List α) (x : α) :
    unrepeated same (xs ++ [x]) =
      if xs.any (same · x) then unrepeated same xs else unrepeated same xs ++ [x] := by
  have hInit : (xs.zipIdx.filter fun c => !((xs ++ [x]).take c.2).any (same · c.1)) =
      xs.zipIdx.filter fun c => !(xs.take c.2).any (same · c.1) := by
    apply List.filter_congr
    intro c hMem
    have hLt : c.2 < xs.length := (List.mem_zipIdx' hMem).1
    rw [List.take_append_of_le_length (Nat.le_of_lt hLt)]
  rw [unrepeated, List.zipIdx_append, List.filter_append, hInit, List.map_append, ← unrepeated]
  simp only [List.zipIdx_singleton, Nat.zero_add, List.filter_cons, List.filter_nil,
    List.take_left]
  cases xs.any (same · x) <;> simp

theorem any_distinct {same : α → α → Bool} {xs : List α} {x : α}
    (hTrans : ∀ y ∈ xs, ∀ z ∈ xs, same z y = true → same y x = true → same z x = true) :
    (distinct same xs).any (same · x) = xs.any (same · x) := by
  rw [Bool.eq_iff_iff, List.any_eq_true, List.any_eq_true]
  constructor
  · rintro ⟨y, hy, hSame⟩
    exact ⟨y, mem_of_mem_distinct same xs y hy, hSame⟩
  · rintro ⟨y, hy, hSame⟩
    obtain ⟨z, hz, rfl | hzy⟩ := exists_same_of_mem same hy
    · exact ⟨z, hz, hSame⟩
    · exact ⟨z, hz, hTrans y hy z (mem_of_mem_distinct same xs z hz) hzy hSame⟩

theorem distinct_eq_unrepeated {same : α → α → Bool} {xs : List α}
    (hTrans : ∀ x ∈ xs, ∀ y ∈ xs, ∀ z ∈ xs, same z y = true → same y x = true → same z x = true) :
    distinct same xs = unrepeated same xs := by
  induction xs using List.reverseRecOn with
  | nil => rfl
  | append_singleton xs x ih =>
    have hMem {y : α} (hy : y ∈ xs) : y ∈ xs ++ [x] := List.mem_append_left _ hy
    have hInit := ih fun y hy z hz u hu => hTrans y (hMem hy) z (hMem hz) u (hMem hu)
    have hLast : x ∈ xs ++ [x] := List.mem_append_right _ List.mem_cons_self
    have hAny := any_distinct fun y hy z hz => hTrans x hLast y (hMem hy) z (hMem hz)
    rw [distinct_append_singleton, unrepeated_append_singleton, hAny, hInit]

section Classes

variable {same : α → α → Bool} (hSymm : ∀ x y, same x y = true → same y x = true)
  (hTrans : ∀ x y z, same x y = true → same y z = true → same x z = true)

include hSymm hTrans

theorem same_congr_right {x y : α} (h : same x y = true) (z : α) : same z x = same z y := by
  rw [Bool.eq_iff_iff]
  exact ⟨fun hx => hTrans z x y hx h, fun hy => hTrans z y x hy (hSymm x y h)⟩

/-- The first element stays and takes all that are the same as it. -/
theorem distinct_cons (x : α) (xs : List α) :
    distinct same (x :: xs) = x :: (distinct same xs).filter fun y => !same x y := by
  induction xs using List.reverseRecOn with
  | nil => rfl
  | append_singleton xs y ih =>
    rw [← List.cons_append, distinct_append_singleton, distinct_append_singleton, ih, List.any_cons,
      List.any_filter]
    cases hxy : same x y with
    | true =>
      rw [Bool.true_or, if_pos rfl]
      split
      · rfl
      · rw [List.filter_append, List.filter_singleton, hxy]
        simp
    | false =>
      -- what `x` takes is not the same as `y`
      have hOther : (fun z => !same x z && same z y) = (same · y) := by
        funext z
        cases hzy : same z y with
        | true =>
          rw [same_congr_right hSymm hTrans hzy x, hxy]
          rfl
        | false => rw [Bool.and_false]
      rw [Bool.false_or, hOther]
      split
      · rfl
      · rw [List.filter_append, List.filter_singleton, hxy]
        rfl

theorem countP_distinct_perm {xs ys : List α} (hPerm : xs.Perm ys) {p : α → Bool}
    (hp : ∀ x y, same x y = true → p x = p y) :
    (distinct same xs).countP p = (distinct same ys).countP p := by
  induction hPerm generalizing p with
  | nil => rfl
  | cons x _ ih =>
    rw [distinct_cons hSymm hTrans, distinct_cons hSymm hTrans, List.countP_cons, List.countP_cons,
      List.countP_filter, List.countP_filter, ih]
    intro y z h
    rw [hp y z h, same_congr_right hSymm hTrans h x]
  | swap x y xs =>
    simp only [distinct_cons hSymm hTrans, List.filter_cons]
    cases hxy : same x y with
    | true =>
      rw [hSymm x y hxy]
      simp only [Bool.not_true, Bool.false_eq_true, if_false, List.countP_cons, List.filter_filter,
        Bool.and_comm, hp x y hxy]
    | false =>
      have hyx : same y x = false := by
        rw [← Bool.not_eq_true]
        intro h
        cases hxy.symm.trans (hSymm y x h)
      rw [hyx]
      simp only [Bool.not_false, if_true, List.countP_cons, List.filter_filter, Bool.and_comm,
        Nat.add_right_comm]
  | trans _ _ ih ih' => exact (ih hp).trans (ih' hp)

end Classes

section Places

variable {cmp : α → α → Ordering} [Std.TransCmp cmp]

theorem isLE_iff_not_before (x y : α) : (cmp x y).isLE ↔ (cmp y x == .lt) = false := by
  have hSwap : cmp y x = (cmp x y).swap := Std.OrientedCmp.eq_swap
  rw [hSwap]
  cases cmp x y <;> decide

theorem pairwise_isLE_sort (xs : List α) :
    (sort (fun x y => cmp x y == .lt) xs).Pairwise fun x y => (cmp x y).isLE := by
  have hSorted : (sort (fun x y => cmp x y == .lt) xs).Pairwise fun x y => (cmp y x == .lt) = false := by
    apply pairwise_sort
    · intro x y h
      rw [← isLE_iff_not_before, beq_iff_eq.mp h]
      rfl
    · intro x y z hxy hyz
      rw [← isLE_iff_not_before] at hxy hyz ⊢
      exact Std.TransCmp.isLE_trans hyz hxy
  exact hSorted.imp (isLE_iff_not_before _ _).mpr

theorem sort_eq_self_of_isLE {xs : List α} (h : xs.Pairwise fun x y => (cmp x y).isLE) :
    sort (fun x y => cmp x y == .lt) xs = xs :=
  sort_eq_self (h.imp (isLE_iff_not_before _ _).mp)

theorem exists_mem_of_countP_eq {xs ys : List α} {x : α} (hx : x ∈ xs)
    (hCount : xs.countP (cmp x · == .eq) = ys.countP (cmp x · == .eq)) : ∃ y ∈ ys, cmp x y = .eq := by
  have hPos : 0 < xs.countP (cmp x · == .eq) :=
    List.countP_pos_iff.mpr ⟨x, hx, beq_iff_eq.mpr Std.ReflCmp.compare_self⟩
  rw [hCount, List.countP_pos_iff] at hPos
  obtain ⟨y, hy, hEq⟩ := hPos
  exact ⟨y, hy, beq_iff_eq.mp hEq⟩

theorem isLE_of_mem_cons {x y : α} {xs : List α} (hxs : (x :: xs).Pairwise fun a b => (cmp a b).isLE)
    (hy : y ∈ x :: xs) : (cmp x y).isLE := by
  rcases List.mem_cons.mp hy with rfl | hy
  · exact Std.ReflCmp.isLE_rfl
  · exact (List.pairwise_cons.mp hxs).1 y hy

/-- Sorted lists agree place by place if each place of the order has as many elements in both. -/
theorem forall₂_of_countP_eq {xs ys : List α} (hxs : xs.Pairwise fun a b => (cmp a b).isLE)
    (hys : ys.Pairwise fun a b => (cmp a b).isLE)
    (hCount : ∀ a, xs.countP (cmp a · == .eq) = ys.countP (cmp a · == .eq)) :
    List.Forall₂ (fun a b => cmp a b = .eq) xs ys := by
  induction xs generalizing ys with
  | nil =>
    cases ys with
    | nil => exact .nil
    | cons y ys =>
      obtain ⟨x, hx, -⟩ := exists_mem_of_countP_eq List.mem_cons_self (hCount y).symm
      cases hx
  | cons x xs ih =>
    cases ys with
    | nil =>
      obtain ⟨y, hy, -⟩ := exists_mem_of_countP_eq List.mem_cons_self (hCount x)
      cases hy
    | cons y ys =>
      -- each head is found in the other list, so neither comes after the other
      have hxy : cmp x y = .eq := by
        obtain ⟨z, hz, hxz⟩ := exists_mem_of_countP_eq List.mem_cons_self (hCount x)
        obtain ⟨u, hu, hyu⟩ := exists_mem_of_countP_eq List.mem_cons_self (hCount y).symm
        apply Std.OrientedCmp.isLE_antisymm
        · rw [Std.TransCmp.congr_right hyu]
          exact isLE_of_mem_cons hxs hu
        · rw [Std.TransCmp.congr_right hxz]
          exact isLE_of_mem_cons hys hz
      refine .cons hxy (ih (List.pairwise_cons.mp hxs).2 (List.pairwise_cons.mp hys).2 ?_)
      intro a
      have hHeads := hCount a
      rw [List.countP_cons, List.countP_cons, Std.TransCmp.congr_right hxy] at hHeads
      exact Nat.add_right_cancel hHeads

end Places

end Bucketing.Sorting
