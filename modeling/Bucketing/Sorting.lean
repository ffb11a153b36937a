/-! # Stable sorting

Insertion sort for a Boolean "comes before". Each element moves left past the elements that it comes
before, so elements of which neither comes before the other keep their order, and the result is
determined even where the comparison is no order.
-/
namespace Bucketing.Sorting

variable {α : Type}

def insertDescending (before : α → α → Bool) (x : α) : List α → List α
  | [] => [x]
  | y :: ys => if before x y then y :: insertDescending before x ys else x :: y :: ys

def sortDescending (before : α → α → Bool) (xs : List α) : List α :=
  xs.foldl (fun sorted x => insertDescending before x sorted) []

def sort (before : α → α → Bool) (xs : List α) : List α := (sortDescending before xs).reverse

theorem insertDescending_perm (before : α → α → Bool) (x : α) (ys : List α) :
    (insertDescending before x ys).Perm (x :: ys) := by
  induction ys with
  | nil => exact .refl _
  | cons y ys ih =>
    simp only [insertDescending]
    split
    · exact (ih.cons y).trans (.swap x y ys)
    · exact .refl _

theorem foldl_insertDescending_perm (before : α → α → Bool) (xs sorted : List α) :
    (xs.foldl (fun sorted x => insertDescending before x sorted) sorted).Perm (xs ++ sorted) := by
  induction xs generalizing sorted with
  | nil => exact .refl _
  | cons x xs ih =>
    refine (ih _).trans ?_
    refine ((insertDescending_perm before x sorted).append_left xs).trans ?_
    exact List.perm_middle

theorem sort_perm (before : α → α → Bool) (xs : List α) : (sort before xs).Perm xs := by
  refine (List.reverse_perm _).trans ?_
  simpa [sortDescending] using foldl_insertDescending_perm before xs []

@[simp] theorem mem_sort_iff (before : α → α → Bool) (xs : List α) (x : α) :
    x ∈ sort before xs ↔ x ∈ xs :=
  (sort_perm before xs).mem_iff

/-- Only the first of elements that are `same` is kept. -/
def distinct (same : α → α → Bool) (xs : List α) : List α :=
  xs.foldl (fun kept x => if kept.any (same · x) then kept else kept ++ [x]) []

theorem distinct_append_singleton (same : α → α → Bool) (xs : List α) (x : α) :
    distinct same (xs ++ [x]) =
      if (distinct same xs).any (same · x) then distinct same xs else distinct same xs ++ [x] := by
  simp [distinct]

theorem mem_of_mem_foldl_distinct (same : α → α → Bool) (xs kept : List α) (x : α)
    (h : x ∈ xs.foldl (fun kept x => if kept.any (same · x) then kept else kept ++ [x]) kept) :
    x ∈ kept ∨ x ∈ xs := by
  induction xs generalizing kept with
  | nil => exact .inl h
  | cons y xs ih =>
    rcases ih _ h with h | h
    · dsimp only at h
      split at h
      · exact .inl h
      · rcases List.mem_append.mp h with h | h
        · exact .inl h
        · exact .inr (List.mem_cons.mpr (.inl (List.mem_singleton.mp h)))
    · exact .inr (List.mem_cons_of_mem _ h)

theorem mem_of_mem_distinct (same : α → α → Bool) (xs : List α) (x : α)
    (h : x ∈ distinct same xs) : x ∈ xs := by
  simpa using mem_of_mem_foldl_distinct same xs [] x h

end Bucketing.Sorting
