import Mathlib.Data.List.Forall2

/-! # Outcomes that are no faults

A computation that may fail gives a result only if all of its steps do.
-/
namespace Bucketing.Outcome

variable {ε α β : Type}

theorem bind_eq_ok_iff {x : Except ε α} {f : α → Except ε β} {b : β} :
    x >>= f = .ok b ↔ ∃ a, x = .ok a ∧ f a = .ok b := by
  constructor
  · intro h
    cases x with
    | error e => cases h
    | ok a => exact ⟨a, rfl, h⟩
  · rintro ⟨a, rfl, h⟩
    exact h

theorem bind_unit_eq_ok_iff {x : Except ε Unit} {y : Except ε β} {b : β} :
    (x >>= fun _ => y) = .ok b ↔ x = .ok () ∧ y = .ok b := by
  rw [bind_eq_ok_iff]
  constructor
  · rintro ⟨⟨⟩, hCheck, hRest⟩
    exact ⟨hCheck, hRest⟩
  · rintro ⟨hCheck, hRest⟩
    exact ⟨(), hCheck, hRest⟩

theorem bind_eq_error_iff {x : Except ε α} {f : α → Except ε β} {e : ε} :
    x >>= f = .error e ↔ x = .error e ∨ ∃ a, x = .ok a ∧ f a = .error e := by
  cases x with
  | error d => simp [bind, Except.bind]
  | ok a => simp [bind, Except.bind]

theorem bind_eq_error_iff_of_ok {x : Except ε α} {f : α → Except ε β} {e : ε}
    (h : ∀ a, ∃ b, f a = .ok b) : x >>= f = .error e ↔ x = .error e := by
  rw [bind_eq_error_iff]
  apply or_iff_left
  rintro ⟨a, -, hError⟩
  obtain ⟨b, hOk⟩ := h a
  cases hOk.symm.trans hError

theorem map_eq_error_iff {x : Except ε α} {f : α → β} {e : ε} :
    f <$> x = .error e ↔ x = .error e := by
  cases x with
  | error d => simp [Functor.map, Except.map]
  | ok a => simp [Functor.map, Except.map]

theorem map_eq_ok_iff {x : Except ε α} {f : α → β} {b : β} :
    f <$> x = .ok b ↔ ∃ a, x = .ok a ∧ f a = b := by
  cases x with
  | error e => simp [Functor.map, Except.map]
  | ok a => simp [Functor.map, Except.map]

theorem mapError_eq_ok_iff {δ : Type} {x : Except ε α} {f : ε → δ} {a : α} :
    x.mapError f = .ok a ↔ x = .ok a := by
  cases x with
  | error e => simp [Except.mapError]
  | ok b => simp [Except.mapError]

section Lists

variable {f : α → Except ε β} {xs : List α} {ys : List β}

theorem mapM_eq_ok_iff : xs.mapM f = .ok ys ↔ List.Forall₂ (fun x y => f x = .ok y) xs ys := by
  induction xs generalizing ys with
  | nil =>
    rw [List.mapM_nil, List.forall₂_nil_left_iff]
    exact ⟨fun h => (Except.ok.inj h).symm, fun h => congrArg Except.ok h.symm⟩
  | cons x xs ih =>
    simp only [List.mapM_cons, bind_eq_ok_iff, ih, List.forall₂_cons_left_iff]
    constructor
    · rintro ⟨y, hHead, rest, hTail, ⟨⟩⟩
      exact ⟨y, rest, hHead, hTail, rfl⟩
    · rintro ⟨y, rest, hHead, hTail, rfl⟩
      exact ⟨y, hHead, rest, hTail, rfl⟩

theorem exists_mapM_iff : (∃ ys, xs.mapM f = .ok ys) ↔ ∀ x ∈ xs, ∃ y, f x = .ok y := by
  simp only [mapM_eq_ok_iff]
  induction xs with
  | nil => exact ⟨nofun, fun _ => ⟨[], .nil⟩⟩
  | cons x xs ih =>
    rw [List.forall_mem_cons, ← ih]
    constructor
    · rintro ⟨_, _ | ⟨hHead, hTail⟩⟩
      exact ⟨⟨_, hHead⟩, _, hTail⟩
    · rintro ⟨⟨y, hHead⟩, ys, hTail⟩
      exact ⟨y :: ys, .cons hHead hTail⟩

theorem exists_mem_of_mapM (h : xs.mapM f = .ok ys) : ∀ x ∈ xs, ∃ y ∈ ys, f x = .ok y := by
  rw [mapM_eq_ok_iff] at h
  induction h with
  | nil => nofun
  | cons hHead _ ih =>
    rw [List.forall_mem_cons]
    refine ⟨⟨_, List.mem_cons_self, hHead⟩, fun x hx => ?_⟩
    obtain ⟨y, hy, hStep⟩ := ih x hx
    exact ⟨y, List.mem_cons_of_mem _ hy, hStep⟩

theorem exists_of_mem_mapM (h : xs.mapM f = .ok ys) : ∀ y ∈ ys, ∃ x ∈ xs, f x = .ok y := by
  rw [mapM_eq_ok_iff] at h
  induction h with
  | nil => nofun
  | cons hHead _ ih =>
    rw [List.forall_mem_cons]
    refine ⟨⟨_, List.mem_cons_self, hHead⟩, fun y hy => ?_⟩
    obtain ⟨x, hx, hStep⟩ := ih y hy
    exact ⟨x, List.mem_cons_of_mem _ hx, hStep⟩

end Lists

end Bucketing.Outcome
