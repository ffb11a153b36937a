import Bucketing.Floating.Basic

/-! # Rounding to the nearest number

The number nearest to a fraction, a half going to the even magnitude. The fractions that round to a
magnitude lie between the midpoints to its neighbours, and all comparisons are between natural
numbers.
-/
namespace Bucketing

/-- The number `coefficient * 10 ^ exponent`. -/
structure Scientific where
  coefficient : Nat
  exponent : Int
  deriving DecidableEq, Repr

namespace Scientific

def numerator (s : Scientific) : Nat := s.coefficient * Nat.pow 10 s.exponent.toNat

def denominator (s : Scientific) : Nat := Nat.pow 10 (-s.exponent).toNat

theorem denominator_pos (s : Scientific) : 0 < s.denominator := Nat.pow_pos (by decide)

end Scientific

namespace Format

/-- Twice the midpoint between a magnitude and the next, in units. -/
def boundary (F : Format) (magnitude : Nat) : Nat := F.units magnitude + F.units (magnitude + 1)

def roundsWithin (F : Format) (num den magnitude : Nat) : Bool :=
  let value := num * Nat.pow 2 (F.unitExponent + 1)
  let limit := F.boundary magnitude * den
  value < limit || (value == limit && magnitude % 2 == 0)

def roundsTo (F : Format) (num den magnitude : Nat) : Bool :=
  F.roundsWithin num den magnitude && (magnitude == 0 || !F.roundsWithin num den (magnitude - 1))

end Format

/-- By bisection, the least number of the `2 ^ bits` from `low` with a property that all later ones
share, or the number after them. -/
def leastFrom (holds : Nat → Bool) : Nat → Nat → Nat
  | 0, low => if holds low then low else low + 1
  | bits + 1, low =>
    if holds (low + Nat.pow 2 bits - 1) then leastFrom holds bits low
    else leastFrom holds bits (low + Nat.pow 2 bits)

namespace Format

def nearest (F : Format) (num den : Nat) : Nat :=
  min (leastFrom (F.roundsWithin num den) (F.exponentBits + F.fractionBits) 0) F.infinity

theorem nearest_lt (F : Format) (num den : Nat) : F.nearest num den < F.size :=
  Nat.lt_of_le_of_lt (Nat.min_le_right _ _) F.infinity_lt

/-- Numbers of extreme size are decided by the place of their leading digit alone. -/
def nearestScientific (F : Format) (s : Scientific) : Nat :=
  let place := s.exponent + (Nat.toDigits 10 s.coefficient).length
  if s.coefficient = 0 then 0
  else if place > F.unitExponent then F.infinity
  else if place < -F.unitExponent then 0
  else F.nearest s.numerator s.denominator

theorem nearestScientific_lt (F : Format) (s : Scientific) :
    F.nearestScientific s < F.size := by
  have hZero : 0 < F.size := Nat.lt_of_le_of_lt (Nat.zero_le _) F.infinity_lt
  simp only [nearestScientific]
  split
  · exact hZero
  · split
    · exact F.infinity_lt
    · split
      · exact hZero
      · exact F.nearest_lt _ _

end Format

end Bucketing
