import Bucketing.Fault

/-! # Comparing values

Values of one kind are compared by their meaning: floats and decimals by value, texts by code point.
Floats are unordered where a NaN is involved. Records of one type are always ordered: their cells
are compared in physical order, with null first and with floats told apart by everything but the
bits of a NaN.
-/
namespace Bucketing

namespace Decimal

def rescale (d : Decimal) (scale : Int8) : Except Fault Int128 :=
  let factor := Int128.pow10? (scale.toInt - d.scale.toInt).toNat
  match factor >>= d.unscaled.mul? with
  | some n => .ok n
  | none => .error (.rescaleOverflow d scale)

/-- At different scales, the number of the smaller scale is brought to the greater one. -/
def tryCompare (a b : Decimal) : Except Fault Ordering :=
  if a.scale = b.scale then .ok (compare a.unscaled b.unscaled)
  else if a.scale < b.scale then return compare (← a.rescale b.scale) b.unscaled
  else return compare a.unscaled (← b.rescale a.scale)

end Decimal

namespace Value

/-- The order of two cells of one field, given the order of their values. -/
def cellOrder : Value → Value → Except Fault (Option Ordering) → Except Fault Ordering
  | .null, .null, _ => .ok .eq
  | .null, _, _ => .ok .lt
  | _, .null, _ => .ok .gt
  | .float32 a, .float32 b, _ => .ok (a.unifyNaN.compareTotal b.unifyNaN)
  | .float64 a, .float64 b, _ => .ok (a.unifyNaN.compareTotal b.unifyNaN)
  | _, _, byValue => (·.getD .eq) <$> byValue

mutual
def tryCompare : Value → Value → Except Fault (Option Ordering)
  | .boolean a, .boolean b => .ok (some (compare a b))
  | .int32 a, .int32 b => .ok (some (compare a b))
  | .int64 a, .int64 b => .ok (some (compare a b))
  | .float32 a, .float32 b => .ok (a.compare? b)
  | .float64 a, .float64 b => .ok (a.compare? b)
  | .decimal a, .decimal b => some <$> a.tryCompare b
  | .utf8 a, .utf8 b => .ok (some (compare a b))
  | .binary a, .binary b => .ok (some (compare a b))
  | .uuid a, .uuid b => .ok (some (compare a b))
  | .record a, .record b =>
    if Record.fields a = Record.fields b then some <$> compareCells a b
    else .error (.recordTypesDiffer (Record.type a) (Record.type b))
  | a, b => .error (.notComparable a b)

/-- The first cells that differ decide. -/
def compareCells : Record → Record → Except Fault Ordering
  | (_, v) :: cells, (_, w) :: others =>
    match cellOrder v w (tryCompare v w) with
    | .ok .eq => compareCells cells others
    | result => result
  | _, _ => .ok .eq
end

end Value

end Bucketing
