/-! # Integer numerals

Reading an optionally signed decimal numeral into a range. A numeral is scanned from the left, so
the first place where it leaves the range or holds a foreign character decides its defect.
-/
namespace Bucketing.Numeral

/-- Why a text is not a numeral of a range. -/
inductive Defect where
  | empty
  | invalidDigit
  | tooLarge
  | tooSmall
  deriving DecidableEq, Repr

def Defect.message : Defect → String
  | .empty => "cannot parse integer from empty string"
  | .invalidDigit => "invalid digit found in string"
  | .tooLarge => "number too large to fit in target type"
  | .tooSmall => "number too small to fit in target type"

def digit? (c : Char) : Option Nat :=
  if '0' ≤ c ∧ c ≤ '9' then some (c.toNat - '0'.toNat) else none

/-- Digits appended to the number `acc`, which may not pass `limit`. -/
def readDigits (limit : Nat) (beyond : Defect) : Nat → List Char → Except Defect Nat
  | acc, [] => .ok acc
  | acc, c :: text =>
    match digit? c with
    | none => .error .invalidDigit
    | some d =>
      if acc * 10 + d ≤ limit then readDigits limit beyond (acc * 10 + d) text else .error beyond

/-- A minus sign is a foreign character where no negative number is in the range. -/
def read (low high : Int) : List Char → Except Defect Int
  | [] => .error .empty
  | ['+'] => .error .invalidDigit
  | ['-'] => .error .invalidDigit
  | '+' :: text => return (← readDigits high.toNat .tooLarge 0 text)
  | '-' :: text =>
    if low < 0 then return -(← readDigits (-low).toNat .tooSmall 0 text : Nat)
    else .error .invalidDigit
  | text => return (← readDigits high.toNat .tooLarge 0 text)

def readInt32 (text : List Char) : Except Defect Int32 :=
  Int32.ofInt <$> read Int32.minValue.toInt Int32.maxValue.toInt text

def readInt64 (text : List Char) : Except Defect Int64 :=
  Int64.ofInt <$> read Int64.minValue.toInt Int64.maxValue.toInt text

def readInt8 (text : List Char) : Except Defect Int8 :=
  Int8.ofInt <$> read Int8.minValue.toInt Int8.maxValue.toInt text

def readUInt8 (text : List Char) : Except Defect UInt8 :=
  (fun n => UInt8.ofNat n.toNat) <$> read 0 255 text

/-- Without leading zeros, and with a sign only where it is a minus. -/
def write (n : Int) : List Char :=
  (if n < 0 then ['-'] else []) ++ Nat.toDigits 10 n.natAbs

/-- A leading sign, as whether it is a minus, and the text after it. -/
def splitSign : List Char → Bool × List Char
  | '-' :: text => (true, text)
  | '+' :: text => (false, text)
  | text => (false, text)

/-- Digits with at most one point among them: those before it and those after it. -/
def splitPoint (text : List Char) : List Char × List Char :=
  (text.takeWhile (· != '.'), (text.dropWhile (· != '.')).drop 1)

def isDigits (text : List Char) : Bool := text.all fun c => (digit? c).isSome

def value (digits : List Char) : Nat := Nat.ofDigitChars 10 digits 0

end Bucketing.Numeral
