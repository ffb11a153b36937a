/-! # Floating-point numbers

Binary formats and their numbers. A number is a sign and a magnitude, which is everything below the
sign bit read as one natural number: it grows with the absolute value, reaches infinity at the first
full exponent, and is a NaN beyond. Two orders are defined, one by value and one on all numbers.
-/
namespace Bucketing

structure Format where
  exponentBits : Nat
  fractionBits : Nat
  deriving DecidableEq, Repr

namespace Format

def single : Format := ⟨8, 23⟩

def double : Format := ⟨11, 52⟩

/-- How many magnitudes share an exponent. -/
def fractionSize (F : Format) : Nat := Nat.pow 2 F.fractionBits

def size (F : Format) : Nat := Nat.pow 2 F.exponentBits * F.fractionSize

/-- The magnitude of infinity, the first of the last exponent. -/
def infinity (F : Format) : Nat := (Nat.pow 2 F.exponentBits - 1) * F.fractionSize

/-- The least positive number is two to the minus this. -/
def unitExponent (F : Format) : Nat := Nat.pow 2 (F.exponentBits - 1) + F.fractionBits - 2

/-- The value of a magnitude as a multiple of the least positive number. Infinity counts as the
power of two that would follow the greatest finite number. -/
def units (F : Format) (magnitude : Nat) : Nat :=
  if magnitude < F.fractionSize then magnitude
  else (F.fractionSize + magnitude % F.fractionSize) * Nat.pow 2 (magnitude / F.fractionSize - 1)

theorem fractionSize_pos (F : Format) : 0 < F.fractionSize := Nat.pow_pos (by decide)

theorem infinity_add_fractionSize (F : Format) : F.infinity + F.fractionSize = F.size := by
  have hPos : 0 < Nat.pow 2 F.exponentBits := Nat.pow_pos (by decide)
  rw [infinity, size, ← Nat.succ_mul, Nat.succ_eq_add_one, Nat.sub_add_cancel hPos]

theorem infinity_lt (F : Format) : F.infinity < F.size := by
  have hSize := F.infinity_add_fractionSize
  have hPos := F.fractionSize_pos
  omega

end Format

structure Floating (F : Format) where
  negative : Bool
  magnitude : Nat
  magnitude_lt : magnitude < F.size
  deriving DecidableEq, Repr

namespace Floating

variable {F : Format}

/-- The sign is the bit above the magnitude. -/
def ofBits (F : Format) (bits : Nat) : Floating F where
  negative := bits / F.size % 2 == 1
  magnitude := bits % F.size
  magnitude_lt := Nat.mod_lt _ (Nat.lt_of_le_of_lt (Nat.zero_le _) F.infinity_lt)

def bits (x : Floating F) : Nat := (if x.negative then F.size else 0) + x.magnitude

def infinity (F : Format) (negative : Bool) : Floating F := ⟨negative, F.infinity, F.infinity_lt⟩

/-- The quiet NaN without further payload. -/
def nan (F : Format) (negative : Bool) : Floating F where
  negative := negative
  magnitude := F.infinity + F.fractionSize / 2
  magnitude_lt := by
    have hSize := F.infinity_add_fractionSize
    have hPos := F.fractionSize_pos
    omega

def isNaN (x : Floating F) : Bool := F.infinity < x.magnitude

def isInfinite (x : Floating F) : Bool := x.magnitude == F.infinity

/-- Grows with the value; the two zeros share it. -/
def rank (x : Floating F) : Int := if x.negative then -x.magnitude else x.magnitude

/-- Tells all numbers apart: negative NaN first, then the numbers by value with the negative zero
before the positive, then positive NaN, each NaN by payload. -/
def totalRank (x : Floating F) : Int := if x.negative then -1 - x.magnitude else x.magnitude

/-- By value; a NaN is unordered. -/
def compare? (x y : Floating F) : Option Ordering :=
  if x.isNaN || y.isNaN then none else some (compare x.rank y.rank)

def compareTotal (x y : Floating F) : Ordering := compare x.totalRank y.totalRank

def equal (x y : Floating F) : Bool := !x.isNaN && !y.isNaN && x.rank == y.rank

def unifyNaN (x : Floating F) : Floating F := if x.isNaN then nan F false else x

/-- Every NaN and every zero has one pattern. -/
def canonicalBits (x : Floating F) : Nat :=
  if x.isNaN then (nan F false).bits else if x.magnitude = 0 then 0 else x.bits

theorem compareTotal_eq_eq_iff (x y : Floating F) : x.compareTotal y = .eq ↔ x = y := by
  rw [compareTotal, Std.LawfulEqOrd.compare_eq_iff_eq]
  obtain ⟨s, m, hm⟩ := x
  obtain ⟨t, n, hn⟩ := y
  cases s <;> cases t <;> simp [totalRank] <;> omega

end Floating

/-- A single-precision magnitude as the double-precision magnitude of the same value: a subnormal
number gets its leading one removed, a normal one its exponent shifted, infinity and NaN a full
exponent. -/
def widenMagnitude (m : Nat) : Nat :=
  if m = 0 then 0
  else if m < Nat.pow 2 23 then
    (m.log2 + 873) * Nat.pow 2 52 + m * Nat.pow 2 (52 - m.log2)
  else if m < 255 * Nat.pow 2 23 then m * Nat.pow 2 29 + 896 * Nat.pow 2 52
  else (m - 255 * Nat.pow 2 23) * Nat.pow 2 29 + 2047 * Nat.pow 2 52

/-- The fraction of a subnormal number, with its leading one in place of the exponent's last bit. -/
theorem mul_pow_log2_lt {m : Nat} (hZero : m ≠ 0) (hSub : m < 8388608) :
    m * Nat.pow 2 (52 - m.log2) < 9007199254740992 := by
  have hLog : m.log2 < 23 := (Nat.log2_lt hZero).mpr hSub
  have hPow : Nat.pow 2 (m.log2 + 1) * Nat.pow 2 (52 - m.log2) = Nat.pow 2 53 := by
    rw [show 53 = m.log2 + 1 + (52 - m.log2) by omega]
    exact (Nat.pow_add 2 _ _).symm
  calc m * Nat.pow 2 (52 - m.log2) < Nat.pow 2 (m.log2 + 1) * Nat.pow 2 (52 - m.log2) :=
        Nat.mul_lt_mul_of_pos_right Nat.lt_log2_self (Nat.pow_pos (by decide))
    _ = Nat.pow 2 53 := hPow
    _ = 9007199254740992 := by decide

theorem widenMagnitude_lt (m : Nat) (h : m < Format.single.size) :
    widenMagnitude m < Format.double.size := by
  have hSingle : Format.single.size = 2147483648 := by decide
  have hDouble : Format.double.size = 9223372036854775808 := by decide
  rw [hSingle] at h
  rw [hDouble]
  simp only [widenMagnitude, Nat.pow_eq, Nat.reducePow]
  split
  · decide
  · next hZero =>
    split
    · next hSub =>
      have hLog : m.log2 < 23 := (Nat.log2_lt hZero).mpr hSub
      have hShift := mul_pow_log2_lt hZero hSub
      rw [Nat.pow_eq] at hShift
      omega
    · split <;> omega

namespace Floating

def widen (x : Floating .single) : Floating .double where
  negative := x.negative
  magnitude := widenMagnitude x.magnitude
  magnitude_lt := widenMagnitude_lt _ x.magnitude_lt

end Floating

end Bucketing
