import Bucketing.Proofs.ByteOrder
import Bucketing.Proofs.Int128
import Mathlib.Tactic.Ring

/-! # The fewest bytes of an integer

Bytes denote an integer in two's complement. The integers that bytes of a length denote are those of a
range, and an integer is written with the fewest bytes whose range it is in. So the bytes written give
back the integer, no fewer do, and decimals are hashed from the same bytes exactly if their unscaled
integers agree.
-/
namespace Bucketing

theorem Murmur.bigEndian_cons (b : UInt8) (bytes : List UInt8) :
    bigEndian (b :: bytes) = b.toNat * 256 ^ bytes.length + bigEndian bytes := by
  induction bytes using List.reverseRecOn with
  | nil => simp [bigEndian]
  | append_singleton bytes c ih =>
    rw [← List.cons_append, bigEndian_append_singleton, bigEndian_append_singleton, ih, List.length_append,
      List.length_singleton, Nat.pow_succ, Nat.add_mul, Nat.mul_assoc, Nat.add_assoc]

namespace TwosComplement

open Murmur

/-- The integer that bytes denote, the most significant first. The first byte has a sign. No bytes denote
nothing. -/
def number? : List UInt8 → Option Int
  | [] => none
  | high :: low => some (high.toInt8.toInt * 256 ^ low.length + bigEndian low)

/-- The integers that a byte with a sign and some further bytes denote. -/
def InBytes (further : Nat) (n : Int) : Prop := -(128 * 256 ^ further) ≤ n ∧ n < 128 * 256 ^ further

/-- The bits of an integer but for that of its sign. -/
def bitCount (n : Int) : Nat :=
  let magnitude := if n < 0 then (-n - 1).toNat else n.toNat
  if magnitude = 0 then 0 else magnitude.log2 + 1

theorem width_eq (n : Int) : width n = bitCount n / 8 + 1 := rfl

theorem bitCount_le_iff (n : Int) (k : Nat) : bitCount n ≤ k ↔ -2 ^ k ≤ n ∧ n < 2 ^ k := by
  have hMagnitude : ∀ m : Nat, (if m = 0 then 0 else m.log2 + 1) ≤ k ↔ m < 2 ^ k := by
    intro m
    split
    · next hZero =>
      rw [hZero]
      exact iff_of_true (Nat.zero_le k) (Nat.pow_pos (by decide))
    · next hZero => exact Nat.log2_lt hZero
  have hPow : ((2 ^ k : Nat) : Int) = 2 ^ k := by norm_cast
  rw [bitCount, hMagnitude]
  split <;> omega

/-- A further byte is needed for every eight bits beyond the first seven. -/
theorem inBytes_iff (further : Nat) (n : Int) : InBytes further n ↔ bitCount n / 8 ≤ further := by
  have hPow : (128 * 256 ^ further : Int) = 2 ^ (8 * further + 7) := by
    rw [pow_add, pow_mul]
    ring
  rw [InBytes, hPow, ← bitCount_le_iff]
  omega

theorem toInt_toInt8_bounds (b : UInt8) :
    -128 ≤ b.toInt8.toInt ∧ b.toInt8.toInt < 128 ∧ b.toInt8.toInt % 256 = b.toNat := by
  refine ⟨b.toInt8.le_toInt, b.toInt8.toInt_lt, ?_⟩
  rw [show b.toInt8.toInt = b.toBitVec.toInt from rfl, BitVec.toInt_eq_toNat_bmod]
  exact Int.bmod_emod.trans (Int.emod_eq_of_lt (Int.natCast_nonneg _) (Int.ofNat_lt.mpr b.toNat_lt))

theorem bigEndian_lt_pow (bytes : List UInt8) : (bigEndian bytes : Int) < 256 ^ bytes.length := by
  exact_mod_cast bigEndian_lt bytes

theorem inBytes_of_number? {high : UInt8} {low : List UInt8} {n : Int}
    (h : number? (high :: low) = some n) : InBytes low.length n := by
  obtain ⟨hLeast, hMost, -⟩ := toInt_toInt8_bounds high
  have hLow := bigEndian_lt_pow low
  have hPlace : (0 : Int) ≤ 256 ^ low.length := Int.pow_nonneg (by decide)
  have hAbove := Int.mul_le_mul_of_nonneg_right hLeast hPlace
  have hBelow := Int.mul_le_mul_of_nonneg_right (Int.le_sub_one_of_lt hMost) hPlace
  cases h
  rw [InBytes]
  omega

theorem emod_eq_of_number? {high : UInt8} {low : List UInt8} {n : Int}
    (h : number? (high :: low) = some n) :
    n % 256 ^ (low.length + 1) = bigEndian (high :: low) := by
  obtain ⟨-, -, hByte⟩ := toInt_toInt8_bounds high
  have hBound := bigEndian_lt_pow (high :: low)
  have hSplit : n = bigEndian (high :: low) + 256 ^ (low.length + 1) * (high.toInt8.toInt / 256) := by
    cases h
    rw [bigEndian_cons, Nat.cast_add, Nat.cast_mul, ← hByte, Int.emod_def]
    push_cast
    ring
  rw [hSplit, Int.add_mul_emod_self_left]
  exact Int.emod_eq_of_lt (Int.natCast_nonneg _) hBound

theorem emod_eq_bytes (width : Nat) (n : Int) : n % 256 ^ width = bigEndian (bytes width n) := by
  induction width generalizing n with
  | zero => simp [bytes, bigEndian]
  | succ width ih =>
    have hByte : ((UInt8.ofNat (n % 256).toNat).toNat : Int) = n % 256 := by
      rw [UInt8.toNat_ofNat']
      omega
    rw [bytes, bigEndian_append_singleton, Nat.cast_add, Nat.cast_mul, hByte, ← ih, pow_succ', Int.emod_def,
      Int.emod_def (n / 256), Int.emod_def n 256, Int.ediv_ediv_of_nonneg (by decide)]
    push_cast
    ring

theorem bmod_of_inBytes {further : Nat} {n : Int} (h : InBytes further n) :
    n.bmod (256 ^ (further + 1)) = n := by
  obtain ⟨hLow, hHigh⟩ := h
  apply Int.bmod_eq_of_le_mul_two
  · push_cast
    rw [pow_succ]
    omega
  · push_cast
    rw [pow_succ]
    omega

theorem number?_bytes {further : Nat} {n : Int} (h : InBytes further n) :
    number? (bytes (further + 1) n) = some n := by
  have hEmod := emod_eq_bytes (further + 1) n
  have hLength := length_bytes (further + 1) n
  cases hBytes : bytes (further + 1) n with
  | nil =>
    rw [hBytes] at hLength
    cases hLength
  | cons high low =>
    rw [hBytes, List.length_cons, Nat.add_right_cancel_iff] at hLength
    rw [hBytes] at hEmod
    obtain ⟨m, hm⟩ : ∃ m, number? (high :: low) = some m := ⟨_, rfl⟩
    have hmEmod := emod_eq_of_number? hm
    rw [hLength, ← hEmod] at hmEmod
    have hmRange := inBytes_of_number? hm
    rw [hLength] at hmRange
    have hSame : m = n := by
      rw [← bmod_of_inBytes hmRange, ← bmod_of_inBytes h, ← Int.emod_bmod m, ← Int.emod_bmod n]
      push_cast
      rw [hmEmod]
    rw [hm, hSame]

theorem number?_minimal (n : Int) : number? (minimal n) = some n :=
  number?_bytes ((inBytes_iff _ n).mpr (Nat.le_refl _))

theorem length_minimal_le {bytes : List UInt8} {n : Int} (h : number? bytes = some n) :
    (minimal n).length ≤ bytes.length := by
  cases bytes with
  | nil => cases h
  | cons high low =>
    rw [minimal, length_bytes, width_eq, List.length_cons]
    exact Nat.succ_le_succ ((inBytes_iff _ n).mp (inBytes_of_number? h))

theorem minimal_ne_nil (n : Int) : minimal n ≠ [] := by
  intro h
  have hNumber := number?_minimal n
  rw [h] at hNumber
  cases hNumber

/-- The first byte only repeats the sign of the second. -/
def Extends (high next : UInt8) : Prop :=
  high.toNat = 0 ∧ next.toNat < 128 ∨ high.toNat = 255 ∧ 128 ≤ next.toNat

theorem number?_of_extends {high next : UInt8} (h : Extends high next) (low : List UInt8) :
    number? (high :: next :: low) = number? (next :: low) := by
  obtain ⟨hHighLeast, hHighMost, hHigh⟩ := toInt_toInt8_bounds high
  obtain ⟨hNextLeast, hNextMost, hNext⟩ := toInt_toInt8_bounds next
  have hDigit : high.toInt8.toInt * 256 + next.toNat = next.toInt8.toInt := by
    rw [Extends] at h
    omega
  rw [number?, number?, bigEndian_cons, ← hDigit, List.length_cons, pow_succ]
  push_cast
  congr 1
  ring

theorem not_extends_of_minimal {n : Int} {high next : UInt8} {low : List UInt8}
    (h : minimal n = high :: next :: low) : ¬Extends high next := by
  intro hExtends
  have hNumber := number?_minimal n
  rw [h, number?_of_extends hExtends] at hNumber
  have hLength := length_minimal_le hNumber
  rw [h, List.length_cons] at hLength
  exact Nat.not_succ_le_self _ hLength

theorem minimal_inj {m n : Int} : minimal m = minimal n ↔ m = n := by
  constructor
  · intro h
    have hNumber := number?_minimal m
    rw [h, number?_minimal n, Option.some.injEq] at hNumber
    exact hNumber.symm
  · rintro rfl
    rfl

theorem length_minimal_le_sixteen (x : Int128) : (minimal x.toInt).length ≤ 16 := by
  have hRange := x.inRange_toInt
  have hBytes : InBytes 15 x.toInt := hRange
  rw [minimal, length_bytes, width_eq]
  exact Nat.succ_le_succ ((inBytes_iff 15 _).mp hBytes)

end TwosComplement

namespace Decimal

open TwosComplement

theorem unscaledBytes_inj {d e : Decimal} : d.unscaledBytes = e.unscaledBytes ↔ d.unscaled = e.unscaled :=
  minimal_inj.trans ⟨Int128.eq_of_toInt_eq, congrArg Int128.toInt⟩

/-- A decimal is hashed from one to sixteen bytes. They denote its unscaled integer, and no fewer bytes
do, so that the first of them is not there for its sign alone. Decimals of any precision and scale have
the same bytes exactly if their unscaled integers agree. -/
theorem unscaledBytes_minimal (d : Decimal) :
    (Value.decimal d).hash = .ok (Murmur.hash d.unscaledBytes) ∧
      d.unscaledBytes ≠ [] ∧ d.unscaledBytes.length ≤ 16 ∧
      number? d.unscaledBytes = some d.unscaled.toInt ∧
      (∀ bytes, number? bytes = some d.unscaled.toInt → d.unscaledBytes.length ≤ bytes.length) ∧
      (∀ high next low, d.unscaledBytes = high :: next :: low → ¬Extends high next) ∧
      ∀ e : Decimal, d.unscaledBytes = e.unscaledBytes ↔ d.unscaled = e.unscaled :=
  ⟨rfl, minimal_ne_nil _, length_minimal_le_sixteen d.unscaled, number?_minimal _,
    fun _ => length_minimal_le, fun _ _ _ => not_extends_of_minimal, fun _ => unscaledBytes_inj⟩

/-- The first integer below zero that needs two bytes, with three bytes that denote it too, and the least
integer of all. -/
theorem unscaledBytes_minimal_negative :
    (number? [0xff, 0xff, 0x7f] = some (-129) ∧
      (⟨9, 2, ⟨-129⟩⟩ : Decimal).unscaledBytes.length ≤ [(0xff : UInt8), 0xff, 0x7f].length) ∧
      ((⟨9, 2, ⟨-129⟩⟩ : Decimal).unscaledBytes = [0xff, 0x7f] ∧ ¬Extends 0xff 0x7f) ∧
      number? (0x80 :: List.replicate 15 0) = some (-170141183460469231731687303715884105728) := by
  have hNumber : number? [0xff, 0xff, 0x7f] = some (-129) := by decide
  have hBytes : (⟨9, 2, ⟨-129⟩⟩ : Decimal).unscaledBytes = [0xff, 0x7f] := by decide
  obtain ⟨-, -, -, -, hFewest, hFirst, -⟩ := unscaledBytes_minimal ⟨9, 2, ⟨-129⟩⟩
  obtain ⟨-, -, -, hLeast, -⟩ := unscaledBytes_minimal ⟨38, -1, ⟨.intMin 128⟩⟩
  exact ⟨⟨hNumber, hFewest _ hNumber⟩, ⟨hBytes, hFirst _ _ _ hBytes⟩, hLeast⟩

end Decimal

end Bucketing
