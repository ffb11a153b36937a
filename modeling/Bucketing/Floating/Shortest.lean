import Bucketing.Floating.Nearest

/-! # Shortest decimal form

The shortest decimal number that rounds to a given magnitude, and of the shortest the nearest to it;
of two equally near ones a tie rule chooses. On the grid of a digit count only the neighbours of the
value need to be tried, since a point of the grid that rounds to the magnitude has one of them
between it and the value.
-/
namespace Bucketing

/-- The place of the leading digit of `num / den`, as a power of ten. -/
def leadingPlace (num den : Nat) : Int :=
  if den ≤ num then (Nat.toDigits 10 (num / den)).length - 1
  else -(Nat.toDigits 10 ((den + num - 1) / num - 1)).length

/-- Which of two equally near decimal numbers is taken: the greater, or the one with the even last
digit. -/
inductive Tie where
  | greater
  | even
  deriving DecidableEq, Repr

/-- Whether a number that lies `remainder / den` above the multiple `quotient` of a unit goes to the
next multiple. -/
def Tie.goesUp (tie : Tie) (quotient remainder den : Nat) : Bool :=
  match compare (2 * remainder) den, tie with
  | .lt, _ => false
  | .gt, _ => true
  | .eq, .greater => true
  | .eq, .even => quotient % 2 == 1

namespace Format

def valueNumerator (F : Format) (magnitude : Nat) : Nat := F.units magnitude

def valueDenominator (F : Format) : Nat := Nat.pow 2 F.unitExponent

/-- The neighbour of the magnitude's value, among the multiples of `10 ^ place`, that rounds to it,
and of two the nearer. -/
def neighbour? (F : Format) (tie : Tie) (magnitude : Nat) (place : Int) : Option Scientific :=
  let num := F.valueNumerator magnitude * Nat.pow 10 (-place).toNat
  let den := F.valueDenominator * Nat.pow 10 place.toNat
  let low : Scientific := ⟨num / den, place⟩
  let high : Scientific := ⟨num / den + 1, place⟩
  match F.roundsTo low.numerator low.denominator magnitude,
    F.roundsTo high.numerator high.denominator magnitude with
  | true, true => some (if tie.goesUp (num / den) (num % den) den then high else low)
  | true, false => some low
  | false, true => some high
  | false, false => none

/-- Every magnitude is a whole number of units, and so has a finite decimal form. -/
def exactForm (F : Format) (magnitude : Nat) : Scientific :=
  ⟨F.units magnitude * Nat.pow 5 F.unitExponent, -F.unitExponent⟩

/-- The exact form is longer than seventeen digits and is left for formats in which so many do not
tell the numbers apart. -/
def shortest (F : Format) (tie : Tie) (magnitude : Nat) : Scientific :=
  let first := leadingPlace (F.valueNumerator magnitude) F.valueDenominator
  ((List.range 17).findSome? fun (n : Nat) => F.neighbour? tie magnitude (first - n)).getD
    (F.exactForm magnitude)

end Format

end Bucketing
