/-! # 128-bit integers

Signed integers of 128 bits, with arithmetic that fails where it leaves them.
-/
namespace Bucketing

structure Int128 where
  bits : BitVec 128
  deriving DecidableEq, Repr

namespace Int128

def toInt (x : Int128) : Int := x.bits.toInt

/-- None for an integer that the bits do not give back. -/
def ofInt? (n : Int) : Option Int128 :=
  let x : Int128 := ⟨.ofInt 128 n⟩
  if x.toInt = n then some x else none

@[simp] theorem ofInt?_toInt (x : Int128) : ofInt? x.toInt = some x := by
  simp [ofInt?, toInt]

theorem ofInt?_eq_some_iff (n : Int) (x : Int128) : ofInt? n = some x ↔ x.toInt = n := by
  constructor
  · intro h
    simp only [ofInt?] at h
    split at h
    · next hBack =>
      cases h
      exact hBack
    · cases h
  · rintro rfl
    exact ofInt?_toInt x

def add? (x y : Int128) : Option Int128 := ofInt? (x.toInt + y.toInt)

def neg? (x : Int128) : Option Int128 := ofInt? (-x.toInt)

def mul? (x y : Int128) : Option Int128 := ofInt? (x.toInt * y.toInt)

/-- Towards zero; there is none by zero. -/
def div? (x y : Int128) : Option Int128 :=
  if y.toInt = 0 then none else ofInt? (x.toInt.tdiv y.toInt)

/-- There is a remainder only where there is a quotient. -/
def rem? (x y : Int128) : Option Int128 :=
  (x.div? y).bind fun _ => ofInt? (x.toInt.tmod y.toInt)

def pow10? (n : Nat) : Option Int128 := ofInt? (Nat.pow 10 n)

instance : Ord Int128 := ⟨fun x y => compare x.toInt y.toInt⟩

end Int128

end Bucketing
