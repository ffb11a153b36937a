import Bucketing.Proofs.Predicate.LiteralOrder
import Bucketing.Proofs.Predicate.Typing
import Mathlib.Data.List.Perm.Basic
import Mathlib.Data.Set.List

/-! # The normal form of a set of literals

Literals of one type are brought to one list, whatever their order was, but for the choice among
literals that compare as equal. That list is sorted, and only a decimal can stand in it twice, at
different precisions. Literals of several kinds keep their order.
-/
namespace Bucketing

/-- A literal that a predicate on a column of the type can have. -/
abbrev ColumnType.Literal (t : ColumnType) : Type :=
  {v : Value // v.wellMade = true ∧ v.fits t = true ∧ v.isNull = false}

namespace Literals

theorem ofOneKind_eq_true_iff (vs : List Value) :
    ofOneKind vs = true ↔ ∀ v ∈ vs, ∀ w ∈ vs, v.kind? = w.kind? := by
  cases vs with
  | nil => simp [ofOneKind]
  | cons u vs =>
    rw [ofOneKind, List.all_eq_true]
    constructor
    · intro h
      have hHead : ∀ v ∈ u :: vs, v.kind? = u.kind? := by
        rintro v (_ | ⟨_, hv⟩)
        · rfl
        · exact beq_iff_eq.mp (h v hv)
      intro v hv w hw
      rw [hHead v hv, hHead w hw]
    · intro h v hv
      exact beq_iff_eq.mpr (h v (List.mem_cons_of_mem u hv) u List.mem_cons_self)

section OneType

variable {t : ColumnType}

theorem exists_tryCompare (v w : t.Literal) : ∃ o, v.1.tryCompare w.1 = .ok o :=
  Value.exists_tryCompare v.2.1 w.2.1 v.2.2.1 w.2.2.1 v.2.2.2 w.2.2.2

instance {numbers : {F : Format} → Floating F → Floating F → Ordering}
    [∀ F, Std.TransCmp (numbers (F := F))] :
    Std.TransCmp fun v w : t.Literal => orderBy numbers v.1 w.1 where
  eq_swap {v w} := by
    obtain ⟨o, h⟩ := exists_tryCompare v w
    exact orderBy_swap h
  isLE_trans {u v w} := by
    obtain ⟨o₁, h₁⟩ := exists_tryCompare u v
    obtain ⟨o₂, h₂⟩ := exists_tryCompare v w
    obtain ⟨o₃, h₃⟩ := exists_tryCompare u w
    exact isLE_orderBy_trans h₁ h₂ h₃

def orderLiterals (v w : t.Literal) : Ordering := order v.1 w.1

def placeLiterals (v w : t.Literal) : Ordering := place v.1 w.1

instance : Std.TransCmp (orderLiterals (t := t)) :=
  inferInstanceAs (Std.TransCmp fun v w : t.Literal => orderBy Floating.compareTotal v.1 w.1)

instance : Std.TransCmp (placeLiterals (t := t)) :=
  inferInstanceAs (Std.TransCmp fun v w : t.Literal => orderBy Floating.compareRank v.1 w.1)

theorem place_of_same {v w : t.Literal} (h : same v.1 w.1 = true) : placeLiterals v w = .eq := by
  rcases eq_or_equal_of_same h with hEq | ⟨hEqual, -⟩
  · obtain rfl := Subtype.ext hEq
    exact Std.ReflCmp.compare_self
  · obtain ⟨hv, hw⟩ := Value.isNaN_of_tryCompare hEqual
    exact Option.some.inj (Except.ok.inj ((tryCompare_eq_place hEqual hv hw).symm.trans hEqual))

/-- The literals without repetitions, in ascending order. -/
def arranged (us : List t.Literal) : List t.Literal :=
  Sorting.sort (fun v w => orderLiterals v w == .lt) (Sorting.distinct (fun v w => same v.1 w.1) us)

theorem normalize_eq_arranged (us : List t.Literal) :
    normalize (us.map Subtype.val) = (arranged us).map Subtype.val := by
  have hKind : ofOneKind (Sorting.distinct same (us.map Subtype.val)) = true := by
    rw [ofOneKind_eq_true_iff, ← Sorting.map_distinct]
    intro v hv w hw
    obtain ⟨v, -, rfl⟩ := List.mem_map.mp hv
    obtain ⟨w, -, rfl⟩ := List.mem_map.mp hw
    obtain ⟨o, h⟩ := exists_tryCompare v w
    exact (Value.sameKind_of_tryCompare h).kind?_eq
  rw [normalize, if_pos hKind, ← Sorting.map_distinct, ← Sorting.map_sort]
  rfl

theorem isLE_of_arranged (us : List t.Literal) :
    (arranged us).Pairwise fun v w => (orderLiterals v w).isLE :=
  Sorting.pairwise_isLE_sort _

theorem not_same_of_arranged (us : List t.Literal) :
    (arranged us).Pairwise fun v w => same v.1 w.1 = false := by
  have hDistinct : (Sorting.distinct (fun v w : t.Literal => same v.1 w.1) us).Pairwise fun v w =>
      same v.1 w.1 = false := Sorting.pairwise_distinct us
  refine hDistinct.perm (Sorting.sort_perm _ _).symm ?_
  intro v w h
  rw [← Bool.not_eq_true] at h ⊢
  exact fun hSame => h (same_symm hSame)

theorem arranged_arranged (us : List t.Literal) : arranged (arranged us) = arranged us := by
  rw [arranged, Sorting.distinct_eq_self (not_same_of_arranged us)]
  exact Sorting.sort_eq_self_of_isLE (isLE_of_arranged us)

/-- What is kept from a class of literals does not depend on their order, and where it stands
depends on the class only. -/
theorem place_arranged_perm {us ws : List t.Literal} (hPerm : us.Perm ws) :
    List.Forall₂ (fun v w => placeLiterals v w = .eq) (arranged us) (arranged ws) := by
  have hPlaces (us : List t.Literal) :
      (arranged us).Pairwise fun v w => (placeLiterals v w).isLE := by
    apply (isLE_of_arranged us).imp
    intro v w h
    obtain ⟨o, ho⟩ := exists_tryCompare v w
    exact isLE_place ho h
  apply Sorting.forall₂_of_countP_eq (hPlaces us) (hPlaces ws)
  intro u
  rw [arranged, arranged, (Sorting.sort_perm _ _).countP_eq, (Sorting.sort_perm _ _).countP_eq]
  apply Sorting.countP_distinct_perm _ _ hPerm
  · intro v w h
    rw [Std.TransCmp.congr_right (place_of_same h)]
  · exact fun v w h => same_symm h
  · exact fun v w x h h' => same_trans v.2.1 x.2.1 h h'

end OneType

theorem normalize_of_kinds {vs : List Value} (hMade : ∀ v ∈ vs, v.wellMade = true)
    (hKinds : ∃ v ∈ vs, ∃ w ∈ vs, v.kind? ≠ w.kind?) :
    normalize vs = Sorting.unrepeated same vs := by
  have hKept {v : Value} (hv : v ∈ vs) : ∃ u ∈ Sorting.distinct same vs, u.kind? = v.kind? := by
    obtain ⟨u, hu, rfl | hSame⟩ := Sorting.exists_same_of_mem same hv
    · exact ⟨u, hu, rfl⟩
    · exact ⟨u, hu, kind?_eq_of_same hSame⟩
  have hMixed : ¬ofOneKind (Sorting.distinct same vs) = true := by
    obtain ⟨v, hv, w, hw, hNe⟩ := hKinds
    obtain ⟨v', hv', hvKind⟩ := hKept hv
    obtain ⟨w', hw', hwKind⟩ := hKept hw
    intro hOne
    apply hNe
    rw [← hvKind, ← hwKind]
    exact (ofOneKind_eq_true_iff _).mp hOne v' hv' w' hw'
  rw [normalize, if_neg hMixed]
  apply Sorting.distinct_eq_unrepeated
  intro x hx y _ z hz
  exact same_trans (hMade z hz) (hMade x hx)

/-- The literals of one type have a normal form of their own, which their order decides only where
literals compare as equal. Where kinds are mixed, exactly the repetitions are dropped. -/
theorem normalize_canonical {vs : List Value} (hMade : ∀ v ∈ vs, v.wellMade = true) :
    (∀ t : ColumnType, (∀ v ∈ vs, v.isNull = false ∧ v.fits t = true) →
      normalize (normalize vs) = normalize vs ∧
        ∀ ws, vs.Perm ws → List.Forall₂ Matches (normalize vs) (normalize ws)) ∧
    ((∃ v ∈ vs, ∃ w ∈ vs, v.kind? ≠ w.kind?) → normalize vs = Sorting.unrepeated same vs) := by
  refine ⟨?_, normalize_of_kinds hMade⟩
  intro t hType
  lift vs to List t.Literal using fun v hv => ⟨hMade v hv, (hType v hv).2, (hType v hv).1⟩
  constructor
  · rw [normalize_eq_arranged, normalize_eq_arranged, arranged_arranged]
  · intro ws hPerm
    lift ws to List t.Literal using by
      intro w hw
      obtain ⟨v, -, rfl⟩ := List.mem_map.mp (hPerm.mem_iff.mpr hw)
      exact v.2
    rw [List.map_perm_map_iff Subtype.val_injective] at hPerm
    rw [normalize_eq_arranged, normalize_eq_arranged, List.forall₂_map_left_iff,
      List.forall₂_map_right_iff]
    apply (place_arranged_perm hPerm).imp
    intro v w hPlace
    obtain ⟨o, h⟩ := exists_tryCompare v w
    exact matches_of_place h hPlace

/-- Zeros of either sign among NaNs. -/
def zerosAndNaNs : List Value :=
  [.float32 (.nan .single false), .float32 ⟨true, 0, by decide⟩, .float32 (.nan .single true),
    .float32 ⟨false, 0, by decide⟩, .float32 (.nan .single false)]

def mixed : List Value := [.int32 2, .utf8 "a", .int32 2, .int32 1]

theorem normalize_canonical_zerosAndNaNs_mixed :
    normalize (normalize zerosAndNaNs) = normalize zerosAndNaNs ∧
      List.Forall₂ Matches (normalize zerosAndNaNs) (normalize zerosAndNaNs.reverse) ∧
      normalize mixed = [.int32 2, .utf8 "a", .int32 1] := by
  have hMade : ∀ v ∈ zerosAndNaNs, v.wellMade = true := by
    simp [zerosAndNaNs, Value.wellMade]
  have hType : ∀ v ∈ zerosAndNaNs, v.isNull = false ∧ v.fits .float32 = true := by
    simp [zerosAndNaNs, Value.isNull, Value.fits, Value.kind?, ColumnType.kind]
  have hMixedMade : ∀ v ∈ mixed, v.wellMade = true := by simp [mixed, Value.wellMade]
  have hKinds : ∃ v ∈ mixed, ∃ w ∈ mixed, v.kind? ≠ w.kind? :=
    ⟨.int32 2, by simp [mixed], .utf8 "a", by simp [mixed], by decide⟩
  obtain ⟨hIdempotent, hPerm⟩ := (normalize_canonical hMade).1 .float32 hType
  have hDropped := (normalize_canonical hMixedMade).2 hKinds
  exact ⟨hIdempotent, hPerm _ (List.reverse_perm _).symm, hDropped.trans rfl⟩

end Literals

/-- The same decimal at another precision. -/
def Value.Respelled (v w : Value) : Prop :=
  ∃ (d : Decimal) (precision : UInt8),
    d.precision ≠ precision ∧ v = .decimal d ∧ w = .decimal { d with precision }

/-- Of values that compare as equal only decimals can be no repetitions of each other. -/
theorem Literals.respelled_of_not_same {t : ColumnType} {v w : Value} (hv : v.fits t = true)
    (hw : w.fits t = true) (hEqual : v.tryCompare w = .ok (some .eq)) (hSame : same v w = false) :
    v.Respelled w := by
  cases Value.sameKind_of_tryCompare hEqual with
  | decimal d e =>
    have hScale := Value.scale_eq_of_fits hv hw
    rw [Value.tryCompare_decimal hScale, Except.ok.injEq, Option.some.injEq,
      Int128.compare_eq_eq_iff] at hEqual
    have hEq : e = { d with precision := e.precision } := by rw [hScale, hEqual]
    refine ⟨d, e.precision, ?_, rfl, congrArg Value.decimal hEq⟩
    intro hPrecision
    rw [hEq, ← hPrecision] at hSame
    exact Bool.false_ne_true (hSame.symm.trans (beq_self_eq_true d))
  | _ =>
    rw [same_of_tryCompare hEqual nofun] at hSame
    cases hSame

theorem Literals.ascending_arranged {t : ColumnType} (us : List t.Literal) :
    (arranged us).Pairwise fun v w => v.1.isNaN = false → w.1.isNaN = false →
      v.1.tryCompare w.1 = .ok (some .lt) ∨
        v.1.tryCompare w.1 = .ok (some .eq) ∧ v.1.Respelled w.1 := by
  apply ((isLE_of_arranged us).and (not_same_of_arranged us)).imp
  rintro v w ⟨hOrder, hSame⟩ hv hw
  obtain ⟨o, ho⟩ := exists_tryCompare v w
  have hPlace := isLE_place ho hOrder
  have hCompare := tryCompare_eq_place ho hv hw
  by_cases hEq : place v.1 w.1 = .eq
  · rw [hEq] at hCompare
    exact .inr ⟨hCompare, respelled_of_not_same v.2.2.1 w.2.2.1 hCompare hSame⟩
  · rw [(Ordering.isLE_iff_eq_lt_or_eq_eq.mp hPlace).resolve_right hEq] at hCompare
    exact .inl hCompare

namespace TermPredicate

variable {op : Operation} {term : Term} {vs : List Value} {p : TermPredicate}

theorem make_set_eq_ok_iff :
    make op term (.set vs) = .ok p ↔ p = ⟨op, term, .set (Literals.normalize vs)⟩ ∧
      op.takesSet = true ∧ ∀ v ∈ vs, v.isNull = false ∧ v.fits term.type = true := by
  rw [make_eq_ok_iff, Operand.normal, Operand.suits_set_iff, Literals.forall_mem_normalize_iff]

/-- The literals of a set that are no NaN are stored in ascending order, strictly but for decimals
of one value at several precisions. -/
theorem ascending_of_make (hMade : ∀ v ∈ vs, v.wellMade = true) (h : make op term (.set vs) = .ok p) :
    ∃ stored, p.operand = .set stored ∧ stored.Pairwise fun v w =>
      v.isNaN = false → w.isNaN = false →
        v.tryCompare w = .ok (some .lt) ∨ v.tryCompare w = .ok (some .eq) ∧ v.Respelled w := by
  obtain ⟨rfl, -, hType⟩ := make_set_eq_ok_iff.mp h
  refine ⟨Literals.normalize vs, rfl, ?_⟩
  lift vs to List term.type.Literal using
    fun v hv => ⟨hMade v hv, (hType v hv).2, (hType v hv).1⟩
  rw [Literals.normalize_eq_arranged, List.pairwise_map]
  exact Literals.ascending_arranged vs

def price : Term := .column ⟨"price", .decimal 9 2⟩

def prices : List Value := [.decimal ⟨9, 2, ⟨142⟩⟩, .decimal ⟨5, 2, ⟨-7⟩⟩, .decimal ⟨5, 2, ⟨142⟩⟩]

theorem ascending_of_make_prices :
    ∃ p stored, make .isIn price (.set prices) = .ok p ∧ p.operand = .set stored ∧
      stored.Pairwise fun v w => v.isNaN = false → w.isNaN = false →
        v.tryCompare w = .ok (some .lt) ∨ v.tryCompare w = .ok (some .eq) ∧ v.Respelled w := by
  have hMade : ∀ v ∈ prices, v.wellMade = true := by decide
  have hMake : make .isIn price (.set prices) =
      .ok ⟨.isIn, price, .set (Literals.normalize prices)⟩ := rfl
  obtain ⟨stored, hStored, hAscending⟩ := ascending_of_make hMade hMake
  exact ⟨_, stored, hMake, hStored, hAscending⟩

/-- Both spellings of one price are stored, and they compare as equal. -/
theorem make_keeps_respelled :
    ∃ p v w, make .isIn price (.set [.decimal ⟨9, 2, ⟨142⟩⟩, .decimal ⟨5, 2, ⟨142⟩⟩]) = .ok p ∧
      p.operand = .set [v, w] ∧ v.isNaN = false ∧ w.isNaN = false ∧
        v.tryCompare w = .ok (some .eq) :=
  ⟨_, _, _, rfl, rfl, rfl, rfl, rfl⟩

end TermPredicate

end Bucketing
