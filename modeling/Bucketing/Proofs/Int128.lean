import Bucketing.Int128

/-! # What fits in 128 bits

An integer is held by 128 bits exactly if it lies in their range, and arithmetic has a result exactly
if the true one does.
-/
namespace Bucketing.Int128

theorem eq_of_toInt_eq {x y : Int128} (h : x.toInt = y.toInt) : x = y := by
  obtain ⟨_⟩ := x
  obtain ⟨_⟩ := y
  exact congrArg Int128.mk (BitVec.toInt_inj.mp h)

def InRange (n : Int) : Prop :=
  -170141183460469231731687303715884105728 ≤ n ∧ n < 170141183460469231731687303715884105728

instance (n : Int) : Decidable (InRange n) := inferInstanceAs (Decidable (_ ∧ _))

theorem inRange_toInt (x : Int128) : InRange x.toInt := by
  have hLow := BitVec.le_two_mul_toInt (x := x.bits)
  have hHigh := BitVec.two_mul_toInt_lt (x := x.bits)
  simp only [InRange, toInt]
  omega

theorem exists_ofInt?_eq_some {n : Int} (h : InRange n) : ∃ x, ofInt? n = some x ∧ x.toInt = n := by
  obtain ⟨hLow, hHigh⟩ := h
  have hInt : (⟨.ofInt 128 n⟩ : Int128).toInt = n := by
    rw [toInt, BitVec.toInt_ofInt]
    apply Int.bmod_eq_of_le <;> omega
  exact ⟨_, if_pos hInt, hInt⟩

theorem InRange.of_le {m n : Nat} (h : InRange n) (hm : m ≤ n) : InRange m := by
  simp only [InRange] at h ⊢
  omega

theorem InRange.of_ofInt? {n : Int} {x : Int128} (h : ofInt? n = some x) : InRange n := by
  rw [← (ofInt?_eq_some_iff n x).mp h]
  exact inRange_toInt x

theorem isSome_ofInt?_iff (n : Int) : (ofInt? n).isSome = true ↔ InRange n := by
  rw [Option.isSome_iff_exists]
  constructor
  · rintro ⟨x, h⟩
    exact .of_ofInt? h
  · intro h
    obtain ⟨x, hx, -⟩ := exists_ofInt?_eq_some h
    exact ⟨x, hx⟩

theorem exists_div?_eq_some {x y : Int128} (hx : 0 ≤ x.toInt) (hy : 0 < y.toInt) :
    ∃ q, x.div? y = some q ∧ q.toInt = x.toInt / y.toInt := by
  have hRange : InRange (x.toInt / y.toInt) := by
    have hLow := Int.ediv_nonneg hx (Int.le_of_lt hy)
    have hHigh := Int.ediv_le_self y.toInt hx
    have hFits := x.inRange_toInt
    simp only [InRange] at hFits ⊢
    omega
  rw [div?, if_neg (by omega), Int.tdiv_eq_ediv_of_nonneg hx]
  exact exists_ofInt?_eq_some hRange

theorem exists_rem?_eq_some {x y : Int128} (hx : 0 ≤ x.toInt) (hy : 0 < y.toInt) :
    ∃ r, x.rem? y = some r ∧ r.toInt = x.toInt % y.toInt := by
  have hRange : InRange (x.toInt % y.toInt) := by
    have hLow := Int.emod_nonneg x.toInt (Int.ne_of_gt hy)
    have hHigh := Int.emod_lt_of_pos x.toInt hy
    have hFits := y.inRange_toInt
    simp only [InRange] at hFits ⊢
    omega
  obtain ⟨q, hq, -⟩ := exists_div?_eq_some hx hy
  rw [rem?, hq, Option.bind_some, Int.tmod_eq_emod_of_nonneg hx]
  exact exists_ofInt?_eq_some hRange

end Bucketing.Int128
