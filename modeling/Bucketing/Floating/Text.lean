import Bucketing.Floating.Shortest
import Bucketing.Text.Basic
import Bucketing.Text.Numeral

/-! # Text of floating-point numbers

A finite number is written with the fewest digits that read back to it, positionally or
scientifically by its size, and read as the number nearest to the text.
-/
namespace Bucketing

/-- How numbers are laid out: positionally while the place of the leading digit is in a range, and
behind a sign where an exponent is positive, if exponents are signed. The tie rule is for numbers
with two nearest shortest forms. -/
structure Layout where
  leastPlace : Int
  greatestPlace : Int
  signedExponent : Bool
  tie : Tie

namespace Layout

/-- Trailing zeros carry no information once the place of the leading digit is kept. -/
def significant (digits : List Char) : List Char := (digits.reverse.dropWhile (· == '0')).reverse

/-- With at least one digit on each side of the point. -/
def positional (digits : List Char) (place : Int) : List Char :=
  if 0 ≤ place then
    let whole := place.toNat + 1
    let fraction := digits.drop whole
    digits.take whole ++ List.replicate (whole - digits.length) '0' ++
      '.' :: (if fraction.isEmpty then ['0'] else fraction)
  else '0' :: '.' :: List.replicate (-place - 1).toNat '0' ++ digits

/-- One digit before the point, and no point where nothing follows. -/
def scientific (layout : Layout) (digits : List Char) (place : Int) : List Char :=
  digits.take 1 ++ (if (digits.drop 1).isEmpty then [] else '.' :: digits.drop 1) ++
    'e' :: (if layout.signedExponent && 0 < place then ['+'] else []) ++ Numeral.write place

def write (layout : Layout) (s : Scientific) : List Char :=
  let digits := Nat.toDigits 10 s.coefficient
  let place := s.exponent + digits.length - 1
  if layout.leastPlace ≤ place ∧ place ≤ layout.greatestPlace then
    positional (significant digits) place
  else layout.scientific (significant digits) place

/-- Numbers from `1e-4` up to below `1e16` are positional. -/
def ofNumbers : Layout := ⟨-4, 15, false, .greater⟩

end Layout

namespace Floating

variable {F : Format}

/-- A NaN shows no sign. -/
def textIn (layout : Layout) (x : Floating F) : List Char :=
  if x.isNaN then "NaN".toList
  else
    (if x.negative then ['-'] else []) ++
      if x.isInfinite then "Infinity".toList
      else if x.magnitude = 0 then "0.0".toList
      else layout.write (F.shortest layout.tie x.magnitude)

def text (x : Floating F) : List Char := x.textIn Layout.ofNumbers

/-- Digits with at most one point and at least one digit, as one coefficient. -/
def readCoefficient (text : List Char) : Option Scientific :=
  let (whole, fraction) := Numeral.splitPoint text
  if Numeral.isDigits whole && Numeral.isDigits fraction && !(whole ++ fraction).isEmpty then
    some ⟨Numeral.value (whole ++ fraction), -fraction.length⟩
  else none

def readExponent (text : List Char) : Option Int :=
  let (negative, digits) := Numeral.splitSign text
  if Numeral.isDigits digits && !digits.isEmpty then
    some (if negative then -Numeral.value digits else Numeral.value digits)
  else none

/-- A coefficient, and behind the letter `e` an exponent of ten. The text is in lower case. -/
def readScientific (text : List Char) : Option Scientific :=
  match Text.cut? 'e' text with
  | none => readCoefficient text
  | some (coefficient, exponent) => do
    let s ← readCoefficient coefficient
    let e ← readExponent exponent
    return ⟨s.coefficient, s.exponent + e⟩

def read (F : Format) (text : List Char) : Option (Floating F) :=
  let (negative, body) := Numeral.splitSign text
  let body := Text.lower body
  if body = "inf".toList ∨ body = "infinity".toList then some (infinity F negative)
  else if body = "nan".toList then some (nan F negative)
  else
    (readScientific body).map fun s => ⟨negative, F.nearestScientific s, F.nearestScientific_lt s⟩

end Floating

end Bucketing
