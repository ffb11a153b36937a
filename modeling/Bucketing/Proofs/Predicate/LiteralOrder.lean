import Bucketing.Proofs.Predicate.Literals
import Bucketing.Proofs.Sorting.Classes
import Bucketing.Proofs.Value.Order

/-! # The order of the literals of one type

Literals that one column can have are sorted by a total order, which tells all floats apart. Without
the sign of a zero it is the order by value, with a place for each NaN besides, and what is in one
place of that order compares as equal. No literal is the same as one in another place, so that the
normal form has, up to what is in one place, nothing to choose.
-/
namespace Bucketing

namespace Floating

variable {F : Format}

/-- By value, with a place for each NaN on the side of its sign. -/
def compareRank (x y : Floating F) : Ordering := compare x.rank y.rank

instance : Std.TransCmp (compareRank (F := F)) := inferInstanceAs (Std.TransCmp (compareOn rank))

theorem isLE_compareRank {x y : Floating F} (h : (x.compareTotal y).isLE) : (x.compareRank y).isLE := by
  rw [compareTotal, Std.isLE_compare] at h
  rw [compareRank, Std.isLE_compare]
  unfold totalRank at h
  unfold rank
  cases hx : x.negative <;> cases hy : y.negative <;> simp only [hx, hy] at h ⊢ <;> grind

/-- A NaN shares its rank with no other number. -/
theorem eq_of_compareRank {x y : Floating F} (h : x.compareRank y = .eq)
    (hNaN : x.isNaN = true ∨ y.isNaN = true) : x = y := by
  obtain ⟨s, m, hm⟩ := x
  obtain ⟨t, n, hn⟩ := y
  -- the magnitudes are one and are not zero, so that the signs are one too
  simp only [isNaN, decide_eq_true_eq] at hNaN
  rw [compareRank, Std.LawfulEqOrd.compare_eq_iff_eq, rank_eq_rank_iff] at h
  grind

theorem compare?_eq_compareRank {x y : Floating F} (hx : x.isNaN = false) (hy : y.isNaN = false) :
    x.compare? y = some (x.compareRank y) := by
  rw [compare?, hx, hy]
  rfl

end Floating

namespace Literals

section Same

variable {u v w : Value}

theorem same_of_tryCompare (h : v.tryCompare w = .ok (some .eq)) (hDecimal : v.kind? ≠ some .decimal) :
    same v w = true := by
  cases Value.sameKind_of_tryCompare h with
  | decimal d e => exact absurd rfl hDecimal
  | record a b => rw [same, h]
  | float32 x y | float64 x y =>
    rw [same, Value.equal, Floating.equal_eq_true_iff]
    · exact Except.ok.inj h
    · simp
  | uuid x y =>
    rw [Value.tryCompare] at h
    obtain rfl := (Uuid.compare_eq_eq_iff x y).mp (Option.some.inj (Except.ok.inj h))
    exact beq_self_eq_true x
  | _ =>
    rw [Value.tryCompare] at h
    obtain rfl := Std.LawfulEqOrd.eq_of_compare (Option.some.inj (Except.ok.inj h))
    rw [same, Value.equal]
    · exact beq_self_eq_true _
    · simp

theorem same_symm (h : same v w = true) : same w v = true := by
  rcases eq_or_equal_of_same h with rfl | ⟨hEqual, hDecimal⟩
  · exact h
  · rw [(Value.sameKind_of_tryCompare hEqual).kind?_eq] at hDecimal
    exact same_of_tryCompare (Value.tryCompare_swap v w hEqual) hDecimal

theorem kind?_eq_of_same (h : same v w = true) : v.kind? = w.kind? := by
  rcases eq_or_equal_of_same h with rfl | ⟨hEqual, -⟩
  · rfl
  · exact (Value.sameKind_of_tryCompare hEqual).kind?_eq

theorem isNull_eq_of_same (h : same v w = true) : v.isNull = w.isNull := by
  rcases eq_or_equal_of_same h with rfl | ⟨hEqual, -⟩
  · rfl
  · obtain ⟨hv, hw⟩ := Value.isNull_of_tryCompare hEqual
    rw [hv, hw]

/-- The check of the literals may as well be made before any is dropped. -/
theorem forall_mem_normalize_iff (vs : List Value) (t : ColumnType) :
    (∀ v ∈ normalize vs, v.isNull = false ∧ v.fits t = true) ↔
      ∀ v ∈ vs, v.isNull = false ∧ v.fits t = true := by
  constructor
  · intro h v hv
    obtain ⟨w, hw, rfl | hSame⟩ := exists_same_of_mem_normalize hv
    · exact h w hw
    · rw [← isNull_eq_of_same hSame, ← fits_eq_of_same hSame]
      exact h w hw
  · exact fun h v hv => h v (mem_of_mem_normalize vs v hv)

theorem same_trans (hu : u.wellMade = true) (hw : w.wellMade = true) (h₁ : same u v = true)
    (h₂ : same v w = true) : same u w = true := by
  rcases eq_or_equal_of_same h₁ with rfl | ⟨hEqual, hDecimal⟩
  · exact h₂
  · rcases eq_or_equal_of_same h₂ with rfl | ⟨hEqual', -⟩
    · exact h₁
    · obtain ⟨t, ht⟩ := u.exists_fits
      have hwFits : w.fits t = true := by rw [← fits_eq_of_same h₂, ← fits_eq_of_same h₁, ht]
      exact same_of_tryCompare (Value.tryCompare_eq_trans hu hw ht hwFits hEqual hEqual') hDecimal

end Same

/-- Orders every two literals of one kind, floats in a way of their own. -/
def orderBy (numbers : {F : Format} → Floating F → Floating F → Ordering) : Value → Value → Ordering
  | .float32 x, .float32 y => numbers x y
  | .float64 x, .float64 y => numbers x y
  | v, w =>
    match v.tryCompare w with
    | .ok (some o) => o
    | _ => .eq

theorem order_eq_orderBy : order = orderBy Floating.compareTotal := rfl

section OrderBy

variable {numbers : {F : Format} → Floating F → Floating F → Ordering} {v w : Value}
  {o : Option Ordering}

theorem orderBy_of_tryCompare {p : Ordering} (h : v.tryCompare w = .ok (some p))
    (hSingle : v.kind? ≠ some .float32) (hDouble : v.kind? ≠ some .float64) :
    orderBy numbers v w = p := by
  fun_cases orderBy numbers v w
  · exact absurd rfl hSingle
  · exact absurd rfl hDouble
  · next hOther => exact Option.some.inj (Except.ok.inj (hOther.symm.trans h))
  · next hNone => exact absurd h (hNone p)

theorem tryCompare_eq_orderBy (h : v.tryCompare w = .ok o) (hSingle : v.kind? ≠ some .float32)
    (hDouble : v.kind? ≠ some .float64) : v.tryCompare w = .ok (some (orderBy numbers v w)) := by
  obtain ⟨p, rfl⟩ := Value.exists_eq_some_of_kind h hSingle hDouble
  rw [h, orderBy_of_tryCompare h hSingle hDouble]

theorem orderBy_swap [∀ F, Std.OrientedCmp (numbers (F := F))] (h : v.tryCompare w = .ok o) :
    orderBy numbers v w = (orderBy numbers w v).swap := by
  cases Value.sameKind_of_tryCompare h with
  | float32 x y | float64 x y =>
    change numbers x y = (numbers y x).swap
    exact Std.OrientedCmp.eq_swap
  | _ =>
    obtain ⟨p, rfl⟩ := Value.exists_eq_some_of_kind h nofun nofun
    rw [orderBy_of_tryCompare h nofun nofun,
      orderBy_of_tryCompare (Value.tryCompare_swap _ _ h) nofun nofun, Ordering.swap_swap]

theorem isLE_orderBy_trans [∀ F, Std.TransCmp (numbers (F := F))] {u : Value}
    {o₁ o₂ o₃ : Option Ordering} (h₁ : u.tryCompare v = .ok o₁) (h₂ : v.tryCompare w = .ok o₂)
    (h₃ : u.tryCompare w = .ok o₃) (huv : (orderBy numbers u v).isLE)
    (hvw : (orderBy numbers v w).isLE) : (orderBy numbers u w).isLE := by
  cases Value.sameKind_of_tryCompare h₁ with
  | float32 x y | float64 x y =>
    cases Value.sameKind_of_tryCompare h₂
    change (numbers _ _).isLE at huv hvw ⊢
    exact Std.TransCmp.isLE_trans huv hvw
  | _ =>
    cases Value.sameKind_of_tryCompare h₂
    rw [Value.tryCompare_eq_then _ _ _ (tryCompare_eq_orderBy h₁ nofun nofun)
      (tryCompare_eq_orderBy h₂ nofun nofun) (tryCompare_eq_orderBy h₃ nofun nofun) huv hvw]
    exact Ordering.isLE_then_iff_and.mpr ⟨huv, .inr hvw⟩

end OrderBy

section Place

variable {v w : Value} {o : Option Ordering}

/-- The order by value, with each NaN in a place of its own. -/
def place : Value → Value → Ordering := orderBy Floating.compareRank

theorem isLE_place (h : v.tryCompare w = .ok o) (hLe : (order v w).isLE) : (place v w).isLE := by
  cases Value.sameKind_of_tryCompare h with
  | float32 x y | float64 x y => exact Floating.isLE_compareRank hLe
  | _ =>
    obtain ⟨p, rfl⟩ := Value.exists_eq_some_of_kind h nofun nofun
    rw [order_eq_orderBy, orderBy_of_tryCompare h nofun nofun] at hLe
    rw [place, orderBy_of_tryCompare h nofun nofun]
    exact hLe

theorem tryCompare_eq_place (h : v.tryCompare w = .ok o) (hv : v.isNaN = false) (hw : w.isNaN = false) :
    v.tryCompare w = .ok (some (place v w)) := by
  cases Value.sameKind_of_tryCompare h with
  | float32 x y | float64 x y =>
    rw [Value.tryCompare, Floating.compare?_eq_compareRank hv hw]
    rfl
  | _ => exact tryCompare_eq_orderBy h nofun nofun

theorem eq_of_place (h : v.tryCompare w = .ok o) (hPlace : place v w = .eq)
    (hNaN : v.isNaN = true ∨ w.isNaN = true) : v = w := by
  cases Value.sameKind_of_tryCompare h with
  | float32 x y | float64 x y => exact congrArg _ (Floating.eq_of_compareRank hPlace hNaN)
  | _ => rcases hNaN with hNaN | hNaN <;> cases hNaN

/-- Equal, or a NaN of the same bits. -/
def Matches (v w : Value) : Prop := v.tryCompare w = .ok (some .eq) ∨ (v.isNaN = true ∧ v = w)

theorem matches_of_place (h : v.tryCompare w = .ok o) (hPlace : place v w = .eq) : Matches v w := by
  by_cases hNaN : v.isNaN = true ∨ w.isNaN = true
  · obtain rfl := eq_of_place h hPlace hNaN
    exact .inr ⟨hNaN.elim id id, rfl⟩
  · rw [not_or, Bool.not_eq_true, Bool.not_eq_true] at hNaN
    rw [Matches, tryCompare_eq_place h hNaN.1 hNaN.2, hPlace]
    exact .inl rfl

end Place

end Literals

end Bucketing
