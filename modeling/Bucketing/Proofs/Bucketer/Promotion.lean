import Bucketing.Proofs.Bucketer.Domain
import Bucketing.Proofs.ByteOrder
import Bucketing.Proofs.Floating.Widening

/-! # Promoted values stay in their bucket

A column may be promoted to a type that holds all of its values: a wider integer or float, a decimal
of greater precision, or the bytes of an identifier. A promoted value has the canonical bytes that it
had before, and so its bucket.
-/
namespace Bucketing

/-- A value of a column, and what it becomes when the column is promoted. -/
inductive Promotes : ColumnType → Value → ColumnType → Value → Prop where
  | int {n : Int32} {m : Int64} (sameNumber : m.toInt = n.toInt) :
      Promotes .int32 (.int32 n) .int64 (.int64 m)
  | float {x : Floating .single} {y : Floating .double} (isWidening : x.IsWidening y) :
      Promotes .float32 (.float32 x) .float64 (.float64 y)
  | decimal {p q : UInt8} {s : Int8} {d : Decimal} (fits : (Value.decimal d).fits (.decimal p s) = true)
      (precision : p ≤ q) : Promotes (.decimal p s) (.decimal d) (.decimal q s) (.decimal d)
  | uuid (u : Uuid) : Promotes .uuid (.uuid u) .binary (.binary u.bytes)

namespace Promotes

variable {t u : ColumnType} {v w : Value}

theorem fits (h : Promotes t v u w) : v.fits t = true ∧ w.fits u = true := by
  cases h with
  | decimal hFits hPrecision =>
    refine ⟨hFits, ?_⟩
    simp only [Value.fits, Bool.and_eq_true, decide_eq_true_eq] at hFits ⊢
    exact ⟨hFits.1, UInt8.le_trans hFits.2 hPrecision⟩
  | _ => exact ⟨rfl, rfl⟩

theorem canBucket (h : Promotes t v u w) :
    Bucketer.canBucket t = true ∧ Bucketer.canBucket u = true := by
  cases h <;> exact ⟨rfl, rfl⟩

theorem isNull (h : Promotes t v u w) : v.isNull = false ∧ w.isNull = false := by
  cases h <;> exact ⟨rfl, rfl⟩

theorem exists_hash (h : Promotes t v u w) : ∃ n, v.hash = .ok n ∧ w.hash = .ok n := by
  cases h with
  | @int n m hSame =>
    obtain rfl : m = n.toInt64 := Int64.toInt_inj.mp (hSame.trans (Int32.toInt_toInt64 n).symm)
    exact ⟨_, rfl, rfl⟩
  | float hWidening =>
    refine ⟨_, rfl, ?_⟩
    rw [Value.hash, Floating.hash_eq_of_canonicalBits_eq (Floating.canonicalBits_of_isWidening hWidening)]
  | decimal => exact ⟨_, rfl, rfl⟩
  | uuid x =>
    refine ⟨_, rfl, ?_⟩
    rw [Value.hash, x.hash_eq]

end Promotes

namespace Bucketer

theorem bucketOf_eq_ok (b : Bucketer) {t : ColumnType} {v : Value} {n : Int32}
    (hCan : canBucket t = true) (hFits : v.fits t = true) (hNull : v.isNull = false)
    (hHash : v.hash = .ok n) : b.bucketOf t (some v) = .ok (some (b.ofHash n)) := by
  cases hBind : b.bind t with
  | error fault =>
    rw [(bind_eq_error_iff.mp hBind).1] at hCan
    cases hCan
  | ok a =>
    obtain rfl := type_eq_of_bind hBind
    obtain rfl := bucketer_eq_of_bind hBind
    rw [bucketOf_of_bind hBind, Assigner.assignRow, a.assign_of_fits hFits hNull, hHash]
    rfl

/-- The promotions of integers and floats exist, and no promotion moves a row. -/
theorem bucketOf_of_promotes (b : Bucketer) :
    (∀ n : Int32, ∃ m, Promotes .int32 (.int32 n) .int64 (.int64 m)) ∧
      (∀ x : Floating .single, ∃ y, Promotes .float32 (.float32 x) .float64 (.float64 y)) ∧
      ∀ {t u : ColumnType} {v w : Value}, Promotes t v u w →
        ∃ k, b.bucketOf t (some v) = .ok (some k) ∧ b.bucketOf u (some w) = .ok (some k) := by
  refine ⟨fun n => ⟨n.toInt64, .int (Int32.toInt_toInt64 n)⟩,
    fun x => ⟨x.widen, .float (Floating.isWidening_widen x)⟩, ?_⟩
  intro t u v w h
  obtain ⟨n, hv, hw⟩ := h.exists_hash
  obtain ⟨hvFits, hwFits⟩ := h.fits
  obtain ⟨hvNull, hwNull⟩ := h.isNull
  obtain ⟨htCan, huCan⟩ := h.canBucket
  exact ⟨b.ofHash n, b.bucketOf_eq_ok htCan hvFits hvNull hv, b.bucketOf_eq_ok huCan hwFits hwNull hw⟩

/-- The least number below zero, a NaN that is promoted to one with other bits, an integer below zero
and a decimal of a greater precision. -/
theorem bucketOf_of_promotes_sixteen :
    let b : Bucketer := ⟨16, by decide⟩
    (∃ k, b.bucketOf .float32 (some (.float32 (.ofBits .single 0x80000001))) = .ok (some k) ∧
        b.bucketOf .float64 (some (.float64 (.ofBits .double 0xb6a0000000000000))) = .ok (some k)) ∧
      (∃ k, b.bucketOf .float32 (some (.float32 (.ofBits .single 0xff800001))) = .ok (some k) ∧
        b.bucketOf .float64 (some (.float64 (.ofBits .double 0x7ff8000000000000))) = .ok (some k)) ∧
      (∃ k, b.bucketOf .int32 (some (.int32 (-34))) = .ok (some k) ∧
        b.bucketOf .int64 (some (.int64 (-34))) = .ok (some k)) ∧
      ∃ k, b.bucketOf (.decimal 9 2) (some (.decimal ⟨4, 2, ⟨1420⟩⟩)) = .ok (some k) ∧
        b.bucketOf (.decimal 38 2) (some (.decimal ⟨4, 2, ⟨1420⟩⟩)) = .ok (some k) := by
  intro b
  have hLeast : Floating.ofBits .double 0xb6a0000000000000 =
      (Floating.ofBits .single 0x80000001).widen := rfl
  have hNaN : (Floating.ofBits .single 0xff800001).IsWidening (.ofBits .double 0x7ff8000000000000) :=
    ⟨rfl, rfl, fun h => absurd h (by decide), fun h => absurd h (by decide)⟩
  refine ⟨(bucketOf_of_promotes b).2.2 (.float ?_), (bucketOf_of_promotes b).2.2 (.float hNaN),
    (bucketOf_of_promotes b).2.2 (.int rfl), (bucketOf_of_promotes b).2.2 (.decimal rfl (by decide))⟩
  rw [hLeast]
  exact Floating.isWidening_widen _

end Bucketer

end Bucketing
