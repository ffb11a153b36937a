import Bucketing.Making

/-! # Reading values

A value of a given type from its text. Nested types have no text that is read.
-/
namespace Bucketing

/-! ## Decimals

The unscaled integer that a plain numeral denotes at a scale. The digits are added one by one to a
tally of integers of fixed width. A step that may leave its width is checked and refuses the text;
any other is relied on to stay inside, and to leave the width is an outcome of its own.

A numeral that the scale would round is refused, and so is one with more significant digits than the
precision. Every digit behind the point counts as significant, and so do the zeros that the scale
appends.
-/

namespace Decimal

/-- Why a reading ends without a number. -/
inductive Stop where
  | refused
  | overflow
  deriving DecidableEq, Repr

/-- A step that is checked for a result. -/
def checked {α : Type} : Option α → Except Stop α
  | some x => .ok x
  | none => .error .refused

/-- A step that is relied on to have a result. -/
def unchecked {α : Type} : Option α → Except Stop α
  | some x => .ok x
  | none => .error .overflow

def byte? (n : Nat) : Option UInt8 := if n < UInt8.size then some (.ofNat n) else none

def int8? (n : Int) : Option Int8 :=
  if Int8.minValue.toInt ≤ n ∧ n ≤ Int8.maxValue.toInt then some (.ofInt n) else none

/-- The number that the digits make so far, and how many of them there are. -/
structure Tally where
  unscaled : Int128
  /-- Significant digits. -/
  digits : UInt8
  /-- Digits behind the point. -/
  decimals : Int8
  seenDigit : Bool
  deriving DecidableEq, Repr

namespace Tally

def empty : Tally := ⟨⟨0⟩, 0, 0, false⟩

def push (t : Tally) (digit : Nat) : Except Stop Tally := do
  let digits ← checked (byte? (t.digits.toNat + 1))
  let shifted ← checked (t.unscaled.mul? ⟨10⟩)
  let unscaled ← checked (shifted.add? ⟨.ofNat 128 digit⟩)
  return { t with unscaled, digits, seenDigit := true }

/-- A digit before the point; zeros in front are not significant. -/
def addWhole (t : Tally) (c : Char) : Except Stop Tally :=
  match Numeral.digit? c with
  | none => .error .refused
  | some digit =>
    if t.digits = 0 ∧ digit = 0 then .ok { t with seenDigit := true } else t.push digit

/-- A digit behind the point, where the scale has a place for it. -/
def addFraction (scale : Int8) (t : Tally) (c : Char) : Except Stop Tally :=
  match Numeral.digit? c with
  | none => .error .refused
  | some digit =>
    if scale ≤ t.decimals then .error .refused
    else do
      let decimals ← unchecked (int8? (t.decimals.toInt + 1))
      push { t with decimals } digit

/-- The digits before the point and those behind it. -/
def ofDigits (scale : Int8) (whole fraction : List Char) : Except Stop Tally := do
  let t ← whole.foldlM addWhole empty
  fraction.foldlM (addFraction scale) t

/-- Zeros appended. -/
def shiftUp (places : UInt8) (t : Tally) : Except Stop Tally := do
  let factor ← checked (Int128.pow10? places.toNat)
  let unscaled ← checked (t.unscaled.mul? factor)
  let digits ← checked (byte? (t.digits.toNat + places.toNat))
  return { t with unscaled, digits }

/-- Zeros taken off; the count of digits does not fall below zero. -/
def shiftDown (places : UInt8) (t : Tally) : Except Stop Tally := do
  let divisor ← checked (Int128.pow10? places.toNat)
  let remainder ← unchecked (t.unscaled.rem? divisor)
  if remainder.toInt = 0 then do
    let unscaled ← unchecked (t.unscaled.div? divisor)
    return { t with unscaled, digits := .ofNat (t.digits.toNat - places.toNat) }
  else throw .refused

def toScale (scale : Int8) (t : Tally) : Except Stop Tally := do
  let t ← if scale < 0 then t.shiftDown (.ofNat scale.toInt.natAbs) else .ok t
  if t.decimals < scale then
    let places ← unchecked (int8? (scale.toInt - t.decimals.toInt))
    t.shiftUp places.toUInt8
  else return t

def finish (precision : UInt8) (negative : Bool) (t : Tally) : Except Stop Int128 :=
  if precision < t.digits then .error .refused
  else if negative then unchecked t.unscaled.neg? else .ok t.unscaled

end Tally

def ofParts (precision : UInt8) (scale : Int8) (negative : Bool) (whole fraction : List Char) :
    Except Stop Int128 := do
  let t ← Tally.ofDigits scale whole fraction
  if t.seenDigit then do
    let t ← t.toScale scale
    t.finish precision negative
  else throw .refused

/-- The reading with what ends it. -/
def parse (precision : UInt8) (scale : Int8) (text : List Char) : Except Stop Int128 :=
  let (negative, body) := Numeral.splitSign text
  let (whole, fraction) := Numeral.splitPoint body
  ofParts precision scale negative whole fraction

def read (precision : UInt8) (scale : Int8) (text : List Char) : Option Int128 :=
  (parse precision scale text).toOption

end Decimal

/-! ## Values of a type -/

def readBoolean : String → Option Bool
  | "t" | "true" | "TRUE" | "T" => some true
  | "f" | "false" | "FALSE" | "F" => some false
  | _ => none

namespace Value

/-- None where the text is none of the type's. -/
def read? (type : ColumnType) (text : String) : Except Fault (Option Value) :=
  match type with
  | .boolean => .ok ((readBoolean text).map .boolean)
  | .int32 => .ok ((Numeral.readInt32 text.toList).toOption.map .int32)
  | .int64 => .ok ((Numeral.readInt64 text.toList).toOption.map .int64)
  | .float32 => .ok ((Floating.read .single text.toList).map .float32)
  | .float64 => .ok ((Floating.read .double text.toList).map .float64)
  | .decimal precision scale =>
    match Decimal.read precision scale text.toList with
    | some unscaled => (some ∘ .decimal) <$> Decimal.make precision scale unscaled
    | none => .ok none
  | .utf8 => .ok (some (.utf8 text))
  | .binary => .ok ((Hex.read text.toList).map .binary)
  | .uuid => .ok ((Uuid.read text.toList).map .uuid)
  | .record _ | .list _ | .map _ _ => .error (.notImplemented s!"parsing values of type {type}")

def read (type : ColumnType) (text : String) : Except Fault Value := do
  match ← read? type text with
  | some v => return v
  | none => throw (.valueUnreadable text type)

end Value

end Bucketing
