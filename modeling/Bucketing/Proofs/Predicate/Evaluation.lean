import Bucketing.Predicate
import Bucketing.Proofs.Outcome
import Bucketing.Proofs.Sorting

/-! # Searching sets of literals

A search ends at the first literal that equals the value. It finds one only if there is one, and
finds none only if the value can be compared with all of them. Where literals repeat each other only
when they are the same, their normal form is the same set.
-/
namespace Bucketing

theorem Literals.mem_normalize_iff {vs : List Value}
    (hSame : ∀ v ∈ vs, ∀ w ∈ vs, same v w = true → v = w) (v : Value) :
    v ∈ normalize vs ↔ v ∈ vs := by
  simp only [normalize]
  split
  · rw [Sorting.mem_sort_iff, Sorting.mem_distinct_iff hSame]
  · rw [Sorting.mem_distinct_iff hSame]

theorem Literals.mem_normalize_int32_iff (ns : List Int32) (n : Int32) :
    Value.int32 n ∈ normalize (ns.map .int32) ↔ n ∈ ns := by
  rw [mem_normalize_iff]
  · simp
  · intro v hv w hw hSame
    obtain ⟨m, -, rfl⟩ := List.mem_map.mp hv
    obtain ⟨k, -, rfl⟩ := List.mem_map.mp hw
    rw [same, Value.equal, beq_iff_eq] at hSame
    · rw [hSame]
    · nofun

def Operand.literals : Operand → List Value
  | .none => []
  | .literal v => [v]
  | .set vs => vs

namespace Operation

theorem present_eq_none_or (row : Option Value) :
    present row = none ∨ ∃ v, row = some v ∧ v.isNull = false ∧ present row = some v := by
  cases row with
  | none => exact .inl rfl
  | some v =>
    cases v with
    | null => exact .inl rfl
    | _ => exact .inr ⟨_, rfl, rfl, rfl⟩

theorem present_some {v : Value} (h : v.isNull = false) : present (some v) = some v := by
  cases v <;> first | rfl | cases h

theorem present_present (row : Option Value) : present (present row) = present row := by
  rcases present_eq_none_or row with h | ⟨v, -, hNull, h⟩
  · rw [h]
    rfl
  · rw [h, present_some hNull]

theorem exists_of_equalsAny {value : Option Value} {literals : List Value}
    (h : equalsAny value literals = .ok true) :
    ∃ literal ∈ literals, compareWith value literal = .ok (some .eq) := by
  induction literals with
  | nil => cases h
  | cons literal literals ih =>
    rw [equalsAny, Outcome.bind_eq_ok_iff] at h
    obtain ⟨o, ho, h⟩ := h
    split at h
    · next hEq =>
      rw [beq_iff_eq.mp hEq] at ho
      exact ⟨literal, List.mem_cons_self, ho⟩
    · obtain ⟨found, hMem, hFound⟩ := ih h
      exact ⟨found, List.mem_cons_of_mem _ hMem, hFound⟩

theorem equalsAny_of_comparable {value : Option Value} {literals : List Value}
    (h : ∀ literal ∈ literals, ∃ o, compareWith value literal = .ok o) :
    ∃ found, equalsAny value literals = .ok found ∧
      (found = true ↔ ∃ literal ∈ literals, compareWith value literal = .ok (some .eq)) := by
  induction literals with
  | nil => exact ⟨false, rfl, by simp⟩
  | cons literal literals ih =>
    obtain ⟨⟨o, ho⟩, hTail⟩ := List.forall_mem_cons.mp h
    obtain ⟨found, hFound, hIff⟩ := ih hTail
    rw [equalsAny, ho]
    by_cases hEq : o = some .eq
    · exact ⟨true, by subst hEq; rfl, by simp [ho, hEq]⟩
    · refine ⟨found, ?_, by simp [ho, hEq, hIff]⟩
      change (if (o == some .eq) = true then pure true else equalsAny value literals) = _
      rw [if_neg (by rwa [beq_iff_eq]), hFound]

theorem compareWith_int32 (n m : Int32) :
    compareWith (some (.int32 n)) (.int32 m) = .ok (some (compare n m)) := by
  rw [compareWith, Value.tryCompare]

theorem compareWith_int32_eq_iff (n m : Int32) :
    compareWith (some (.int32 n)) (.int32 m) = .ok (some .eq) ↔ n = m := by
  rw [compareWith_int32, Except.ok.injEq, Option.some.injEq, Std.LawfulEqOrd.compare_eq_iff_eq]

/-- Buckets can all be compared. -/
theorem equalsAny_int32 (n : Int32) {literals : List Value}
    (h : ∀ literal ∈ literals, ∃ m, literal = .int32 m) :
    ∃ found, equalsAny (some (.int32 n)) literals = .ok found ∧
      (found = true ↔ .int32 n ∈ literals) := by
  have hComparable : ∀ literal ∈ literals, ∃ o, compareWith (some (.int32 n)) literal = .ok o := by
    intro literal hMem
    obtain ⟨m, rfl⟩ := h literal hMem
    exact ⟨_, compareWith_int32 n m⟩
  obtain ⟨found, hFound, hIff⟩ := equalsAny_of_comparable hComparable
  refine ⟨found, hFound, hIff.trans ?_⟩
  constructor
  · rintro ⟨literal, hMem, hEq⟩
    obtain ⟨m, rfl⟩ := h literal hMem
    rwa [(compareWith_int32_eq_iff n m).mp hEq]
  · intro hMem
    exact ⟨.int32 n, hMem, (compareWith_int32_eq_iff n n).mpr rfl⟩

end Operation

end Bucketing
