import Bucketing.Proofs.Predicate.Literals
import Bucketing.Proofs.Projection.Failure
import Mathlib.Data.List.Sort
import Mathlib.Data.Set.List

/-! # Projections of alike sets

Buckets are collected in strictly ascending order, so that they depend only on which buckets occur.
Alike literals have one hash, hence one bucket, and sets of such literals the same projections. Of a
term that is a bucket itself, alike literals are the same, and so are the sets in their normal form.
-/
namespace Bucketing

theorem pairwise_insertAscending (n : Int32) {ns : List Int32} (h : ns.Pairwise (· < ·)) :
    (insertAscending n ns).Pairwise (· < ·) := by
  induction ns with
  | nil => exact List.pairwise_singleton _ n
  | cons m ns ih =>
    obtain ⟨hHead, hTail⟩ := List.pairwise_cons.mp h
    rw [insertAscending]
    split
    · next hLt =>
      refine List.pairwise_cons.mpr ⟨?_, h⟩
      intro k hk
      rcases List.mem_cons.mp hk with rfl | hk
      · exact hLt
      · exact Int32.lt_trans hLt (hHead k hk)
    · split
      · exact h
      · next hLt hEq =>
        refine List.pairwise_cons.mpr ⟨?_, ih hTail⟩
        intro k hk
        rcases (mem_insertAscending_iff n k ns).mp hk with rfl | hk
        · exact Std.lt_of_le_of_ne (Std.not_lt.mp hLt) (Ne.symm hEq)
        · exact hHead k hk

theorem pairwise_ascending (ns : List Int32) : (ascending ns).Pairwise (· < ·) := by
  apply List.foldlRecOn ns _ List.Pairwise.nil
  intro sorted h n _
  exact pairwise_insertAscending n h

theorem eq_ascending {ns ms : List Int32} (h : ns.Pairwise (· < ·)) (hMem : ∀ n, n ∈ ns ↔ n ∈ ms) :
    ns = ascending ms := by
  apply h.eq_of_mem_iff (pairwise_ascending ms)
  intro n
  rw [hMem, mem_ascending_iff]

theorem ascending_congr {ns ms : List Int32} (h : ∀ n, n ∈ ns ↔ n ∈ ms) : ascending ns = ascending ms := by
  apply eq_ascending (pairwise_ascending ns)
  intro n
  rw [mem_ascending_iff, h]

namespace Literals

theorem same_int32 (n m : Int32) : same (.int32 n) (.int32 m) = (n == m) := by
  rw [same, Value.equal]
  intro a b h
  cases h

theorem order_int32 (n m : Int32) : (order (.int32 n) (.int32 m) == .lt) = decide (n < m) := by
  rw [order, Value.tryCompare]
  · dsimp only
    rw [Bool.eq_iff_iff, beq_iff_eq, decide_eq_true_iff, Std.compare_eq_lt]
  all_goals nofun

/-- Buckets have the ascending list of them as their normal form. -/
theorem normalize_int32 (ns : List Int32) : normalize (ns.map .int32) = (ascending ns).map .int32 := by
  have hKept : Sorting.distinct same (ns.map .int32) = (Sorting.distinct (· == ·) ns).map .int32 := by
    rw [← Sorting.map_distinct]
    simp only [same_int32]
  have hOneKind (ms : List Int32) : ofOneKind (ms.map .int32) = true := by
    cases ms with
    | nil => rfl
    | cons m ms => simp [ofOneKind, Value.kind?]
  have hSort (ms : List Int32) : Sorting.sort (fun v w => order v w == .lt) (ms.map .int32) =
      (Sorting.sort (fun n m => n < m) ms).map .int32 := by
    rw [← Sorting.map_sort]
    simp only [order_int32]
  have hSorted : (Sorting.sort (fun n m => decide (n < m)) (Sorting.distinct (· == ·) ns)).Pairwise
      (· < ·) := by
    apply Sorting.pairwise_lt_sort_key
    rw [List.map_id']
    apply (Sorting.pairwise_distinct ns).imp
    intro n m hNe
    exact beq_eq_false_iff_ne.mp hNe
  rw [normalize, hKept, if_pos (hOneKind _), hSort, eq_ascending hSorted]
  intro n
  rw [Sorting.mem_sort_iff, Sorting.mem_distinct_iff]
  intro m _ k _ hEq
  exact beq_iff_eq.mp hEq

theorem eq_int32_of_same {n : Int32} {v : Value} (h : same (.int32 n) v = true) : v = .int32 n := by
  rcases eq_or_equal_of_same h with rfl | ⟨hEqual, -⟩
  · rfl
  · cases Value.sameKind_of_tryCompare hEqual with
    | int32 _ m =>
      rw [same_int32, beq_iff_eq] at h
      rw [h]

theorem exists_eq_map_int32 {vs : List Value} (h : ∀ v ∈ normalize vs, ∃ n, v = .int32 n) :
    ∃ ns : List Int32, vs = ns.map .int32 := by
  have hAll : ∀ v ∈ vs, ∃ n, Value.int32 n = v := by
    intro v hv
    obtain ⟨w, hw, hSame⟩ := exists_same_of_mem_normalize hv
    obtain ⟨n, rfl⟩ := h w hw
    rcases hSame with rfl | hSame
    · exact ⟨n, rfl⟩
    · exact ⟨n, (eq_int32_of_same hSame).symm⟩
  have hRange : vs ∈ Set.range (List.map Value.int32) := by
    rw [Set.range_list_map]
    exact hAll
  obtain ⟨ns, rfl⟩ := hRange
  exact ⟨ns, rfl⟩

theorem alike_int32_iff (n m : Int32) : (Value.int32 n).Alike (.int32 m) ↔ n = m := by
  rw [Value.Alike, Value.tryCompare, Except.ok.injEq, Option.some.injEq, Std.LawfulEqOrd.compare_eq_iff_eq]
  simp [Value.isNaN]

theorem mem_of_alike_int32 {ns ms : List Int32}
    (h : ∀ v ∈ ns.map Value.int32, ∃ w ∈ ms.map Value.int32, v.Alike w) {n : Int32} (hn : n ∈ ns) :
    n ∈ ms := by
  obtain ⟨w, hw, hAlike⟩ := h (.int32 n) (List.mem_map_of_mem hn)
  obtain ⟨m, hm, rfl⟩ := List.mem_map.mp hw
  rwa [(alike_int32_iff n m).mp hAlike]

theorem normalize_congr_of_alike {vs ws : List Value} (hvs : ∀ v ∈ normalize vs, ∃ n, v = .int32 n)
    (hws : ∀ w ∈ normalize ws, ∃ n, w = .int32 n) (hForth : ∀ v ∈ vs, ∃ w ∈ ws, v.Alike w)
    (hBack : ∀ w ∈ ws, ∃ v ∈ vs, w.Alike v) : normalize vs = normalize ws := by
  obtain ⟨ns, rfl⟩ := exists_eq_map_int32 hvs
  obtain ⟨ms, rfl⟩ := exists_eq_map_int32 hws
  rw [normalize_int32, normalize_int32, ascending_congr]
  intro n
  exact ⟨mem_of_alike_int32 hForth, mem_of_alike_int32 hBack⟩

end Literals

namespace Assigner

variable (a : Assigner) {vs ws : List Value}

theorem assign_congr {v w : Value} (hvNull : v.isNull = false) (hv : v.fits a.type = true)
    (hwNull : w.isNull = false) (hw : w.fits a.type = true) (h : v.hash = w.hash) :
    a.assign v = a.assign w := by
  rw [a.assign_of_fits hv hvNull, a.assign_of_fits hw hwNull, h]

theorem mem_of_assignLiterals (hvs : ∀ v ∈ vs, v.isNull = false ∧ v.fits a.type = true)
    (hws : ∀ w ∈ ws, w.isNull = false ∧ w.fits a.type = true)
    (hHash : ∀ v ∈ vs, ∃ w ∈ ws, v.hash = w.hash) {ks ms : List Int32}
    (hks : a.assignLiterals vs = .ok ks) (hms : a.assignLiterals ws = .ok ms) {k : Int32}
    (hk : k ∈ ks) : k ∈ ms := by
  obtain ⟨v, hv, hAssign⟩ := (a.mem_iff_of_assignLiterals hks k).mp hk
  obtain ⟨w, hw, hvw⟩ := hHash v hv
  obtain ⟨hvNull, hvFits⟩ := hvs v hv
  obtain ⟨hwNull, hwFits⟩ := hws w hw
  rw [a.assign_congr hvNull hvFits hwNull hwFits hvw] at hAssign
  exact (a.mem_iff_of_assignLiterals hms k).mpr ⟨w, hw, hAssign⟩

/-- Literals with the same hashes have the same buckets, or for the same reason none. -/
theorem ascending_assignLiterals_congr (hvs : ∀ v ∈ vs, v.isNull = false ∧ v.fits a.type = true)
    (hws : ∀ w ∈ ws, w.isNull = false ∧ w.fits a.type = true)
    (hForth : ∀ v ∈ vs, ∃ w ∈ ws, v.hash = w.hash) (hBack : ∀ w ∈ ws, ∃ v ∈ vs, w.hash = v.hash) :
    ascending <$> a.assignLiterals vs = ascending <$> a.assignLiterals ws := by
  -- Without literals nothing fails, also where a column has no hash.
  have hEmpty : vs = [] ↔ ws = [] := by
    constructor
    · rintro rfl
      exact List.eq_nil_iff_forall_not_mem.mpr fun w hw => by simpa using hBack w hw
    · rintro rfl
      exact List.eq_nil_iff_forall_not_mem.mpr fun v hv => by simpa using hForth v hv
  have hFault (fault : Fault) : a.assignLiterals vs = .error fault ↔ a.assignLiterals ws = .error fault := by
    rw [a.assignLiterals_eq_error_iff fault hvs, a.assignLiterals_eq_error_iff fault hws, Ne, hEmpty]
  cases hks : a.assignLiterals vs with
  | error fault => rw [(hFault fault).mp hks]
  | ok ks =>
    cases hms : a.assignLiterals ws with
    | error fault => cases hks.symm.trans ((hFault fault).mpr hms)
    | ok ms =>
      apply congrArg Except.ok
      apply ascending_congr
      intro k
      exact ⟨a.mem_of_assignLiterals hvs hws hForth hks hms, a.mem_of_assignLiterals hws hvs hBack hms hks⟩

end Assigner

namespace Bucketer

variable {b : Bucketer} {direction : Direction} {name : String} {op : Operation} {vs ws : List Value}

theorem projectColumn_set_of_not_bucketsLiterals {type : ColumnType} {term : Term} {a : Assigner}
    (hBind : b.bind type = .ok a) (hShaped : NamedPredicate.wellShaped op (.set vs) = true)
    (hDirection : direction.bucketsLiterals op = false) :
    b.projectColumn direction name type ⟨op, term, .set vs⟩ = .ok none := by
  match direction, op, hShaped, hDirection with
  | .strict, .isIn, _, _ | .inclusive, .notIn, _, _ =>
    rw [projectColumn, hBind]
    rfl

theorem projectColumn_set_congr {type : ColumnType} {term : Term}
    (hvs : (Operand.set vs).Suits op type) (hws : (Operand.set ws).Suits op type)
    (hForth : ∀ v ∈ vs, ∃ w ∈ ws, v.hash = w.hash) (hBack : ∀ w ∈ ws, ∃ v ∈ vs, w.hash = v.hash) :
    b.projectColumn direction name type ⟨op, term, .set vs⟩ =
      b.projectColumn direction name type ⟨op, term, .set ws⟩ := by
  cases hBind : b.bind type with
  | error fault =>
    rw [projectColumn, projectColumn, hBind]
    rfl
  | ok a =>
    cases hDirection : direction.bucketsLiterals op with
    | false =>
      rw [projectColumn_set_of_not_bucketsLiterals hBind hvs.shaped hDirection,
        projectColumn_set_of_not_bucketsLiterals hBind hws.shaped hDirection]
    | true =>
      obtain rfl := type_eq_of_bind hBind
      have hBuckets := a.ascending_assignLiterals_congr ((Operand.suits_set_iff vs op _).mp hvs).2
        ((Operand.suits_set_iff ws op _).mp hws).2 hForth hBack
      have hMake (us : List Value) : (a.assignLiterals us >>= fun ks =>
            some <$> NamedPredicate.makeNormal op name (.set ((ascending ks).map .int32))) =
          (ascending <$> a.assignLiterals us) >>= fun sorted =>
            some <$> NamedPredicate.makeNormal op name (.set (sorted.map .int32)) := by
        cases a.assignLiterals us <;> rfl
      rw [projectColumn_set hBind hvs.shaped hDirection, projectColumn_set hBind hws.shaped hDirection,
        hMake, hMake, hBuckets]

variable {term : Term} {p q : TermPredicate}

/-- Two sets in which each literal is alike to one of the other have the same projections, or fail to
project for the same reason. -/
theorem project_congr_of_alike (hp : TermPredicate.make op term (.set vs) = .ok p)
    (hq : TermPredicate.make op term (.set ws) = .ok q) (hvs : ∀ v ∈ vs, v.wellMade = true)
    (hws : ∀ w ∈ ws, w.wellMade = true) (hForth : ∀ v ∈ vs, ∃ w ∈ ws, v.Alike w)
    (hBack : ∀ w ∈ ws, ∃ v ∈ vs, w.Alike v) :
    b.project direction name p = b.project direction name q := by
  obtain ⟨rfl, hpSuits⟩ := TermPredicate.make_eq_ok_iff.mp hp
  obtain ⟨rfl, hqSuits⟩ := TermPredicate.make_eq_ok_iff.mp hq
  cases term with
  | column c =>
    apply projectColumn_set_congr hpSuits hqSuits
    · exact Literals.exists_hash_eq_of_alike hvs hws hpSuits.fits hqSuits.fits hForth
    · exact Literals.exists_hash_eq_of_alike hws hvs hqSuits.fits hpSuits.fits hBack
  | bucketed other c =>
    -- The literals are carried over, so hashes say nothing here: the sets themselves are the same.
    rw [Operand.normal, Operand.normal,
      Literals.normalize_congr_of_alike hpSuits.exists_eq_int32 hqSuits.exists_eq_int32 hForth hBack]

def zeroAndNaN (negative : Bool) : List Value :=
  [.float64 ⟨negative, 0, by decide⟩, .float64 (.nan .double negative)]

theorem project_congr_of_alike_zeroAndNaN :
    ∃ p q, TermPredicate.make .notIn (.column ⟨"score", .float64⟩) (.set (zeroAndNaN true)) = .ok p ∧
      TermPredicate.make .notIn (.column ⟨"score", .float64⟩) (.set (zeroAndNaN false).reverse) = .ok q ∧
        (⟨8, by decide⟩ : Bucketer).project .strict "bucket" p =
          (⟨8, by decide⟩ : Bucketer).project .strict "bucket" q := by
  have hMade (negative : Bool) : ∀ v ∈ zeroAndNaN negative, v.wellMade = true := by
    simp [zeroAndNaN, Value.wellMade]
  have hAlike (negative other : Bool) :
      ∀ v ∈ zeroAndNaN negative, ∃ w ∈ zeroAndNaN other, v.Alike w := by
    rw [zeroAndNaN, List.forall_mem_cons, List.forall_mem_singleton]
    constructor
    · refine ⟨_, List.mem_cons_self, .inl ?_⟩
      cases negative <;> cases other <;> rfl
    · exact ⟨_, List.mem_cons_of_mem _ List.mem_cons_self, .inr (by cases negative <;> cases other <;> decide)⟩
  obtain ⟨p, hp⟩ : ∃ p, TermPredicate.make .notIn (.column ⟨"score", .float64⟩) (.set (zeroAndNaN true)) = .ok p :=
    ⟨_, rfl⟩
  obtain ⟨q, hq⟩ : ∃ q, TermPredicate.make .notIn (.column ⟨"score", .float64⟩)
      (.set (zeroAndNaN false).reverse) = .ok q := ⟨_, rfl⟩
  refine ⟨p, q, hp, hq, project_congr_of_alike hp hq (hMade true) ?_ ?_ ?_⟩
  · simpa only [List.mem_reverse] using hMade false
  · simpa only [List.mem_reverse] using hAlike true false
  · simpa only [List.mem_reverse] using hAlike false true

end Bucketer

end Bucketing
