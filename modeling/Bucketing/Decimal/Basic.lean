import Bucketing.Int128
import Bucketing.Text.Numeral

/-! # Decimals

A decimal is an unscaled integer with a scale, the number `unscaled * 10 ^ (-scale)`, kept in a
column of some precision. Here are its text and the shortest bytes of its unscaled integer.
-/
namespace Bucketing

structure Decimal where
  precision : UInt8
  scale : Int8
  unscaled : Int128
  deriving DecidableEq, Repr

namespace Decimal

def maxPrecision : Nat := 38

def coefficient (d : Decimal) : List Char := Nat.toDigits 10 d.unscaled.toInt.natAbs

/-- The place of the leading digit, as a power of ten. -/
def adjusted (d : Decimal) : Int := d.coefficient.length - 1 - d.scale.toInt

/-- The last `scale` digits behind a point, with a zero before a point that has no digit before it.
-/
def plain (digits : List Char) (scale : Nat) : List Char :=
  if scale = 0 then digits
  else if scale < digits.length then
    digits.take (digits.length - scale) ++ '.' :: digits.drop (digits.length - scale)
  else '0' :: '.' :: List.replicate (scale - digits.length) '0' ++ digits

/-- One digit before the point, and an exponent unless it is zero. -/
def scientific (digits : List Char) (exponent : Int) : List Char :=
  digits.take 1 ++ (if (digits.drop 1).isEmpty then [] else '.' :: digits.drop 1) ++
    if exponent = 0 then []
    else 'E' :: (if 0 < exponent then ['+'] else []) ++ Numeral.write exponent

/-- Plain where the scale is not negative and the leading digit at most six places behind the point.
-/
def text (d : Decimal) : List Char :=
  (if d.unscaled.toInt < 0 then ['-'] else []) ++
    if 0 ≤ d.scale.toInt ∧ -6 ≤ d.adjusted then plain d.coefficient d.scale.toInt.toNat
    else scientific d.coefficient d.adjusted

end Decimal

namespace TwosComplement

/-- The bytes that an integer needs, one bit of them for the sign. -/
def width (n : Int) : Nat :=
  let magnitude := if n < 0 then (-n - 1).toNat else n.toNat
  (if magnitude = 0 then 0 else magnitude.log2 + 1) / 8 + 1

/-- The low bytes of an integer, the most significant first. -/
def bytes : Nat → Int → List UInt8
  | 0, _ => []
  | width + 1, n => bytes width (n / 256) ++ [UInt8.ofNat (n % 256).toNat]

/-- The fewest bytes that read back as the integer; zero has one. -/
def minimal (n : Int) : List UInt8 := bytes (width n) n

@[simp] theorem length_bytes (width : Nat) (n : Int) : (bytes width n).length = width := by
  induction width generalizing n with
  | zero => rfl
  | succ width ih => simp [bytes, ih]

end TwosComplement

def Decimal.unscaledBytes (d : Decimal) : List UInt8 := TwosComplement.minimal d.unscaled.toInt

end Bucketing
