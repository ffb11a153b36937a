import Bucketing.Value.Hash
import Mathlib.Algebra.Group.Nat.Defs
import Mathlib.Data.List.Induction

/-! # Bytes in either order

To read bytes with the most significant first and write them with the least significant first turns
them round. Done twice, as to the halves of an identifier, it gives back the bytes.
-/
namespace Bucketing

namespace Murmur

theorem bigEndian_append_singleton (bytes : List UInt8) (b : UInt8) :
    bigEndian (bytes ++ [b]) = bigEndian bytes * 256 + b.toNat := by
  rw [bigEndian, List.foldl_append]
  rfl

theorem bigEndian_lt (bytes : List UInt8) : bigEndian bytes < 256 ^ bytes.length := by
  induction bytes using List.reverseRecOn with
  | nil => decide
  | append_singleton bytes b ih =>
    have hByte := b.toNat_lt
    rw [bigEndian_append_singleton, List.length_append, List.length_singleton, Nat.pow_succ]
    omega

theorem littleEndian_bigEndian (bytes : List UInt8) :
    littleEndian bytes.length (bigEndian bytes) = bytes.reverse := by
  induction bytes using List.reverseRecOn with
  | nil => rfl
  | append_singleton bytes b ih =>
    have hByte := b.toNat_lt
    have hRest : (bigEndian bytes * 256 + b.toNat) / 256 = bigEndian bytes := by omega
    have hLast : UInt8.ofNat (bigEndian bytes * 256 + b.toNat) = b := by
      rw [← UInt8.toNat_inj, UInt8.toNat_ofNat']
      omega
    rw [bigEndian_append_singleton, List.length_append, List.length_singleton, littleEndian, hRest, hLast,
      ih, List.reverse_append]
    rfl

section

variable {bytes : List UInt8} (h : bytes.length = 8)

include h

theorem toNat_ofNat_bigEndian : (UInt64.ofNat (bigEndian bytes)).toNat = bigEndian bytes := by
  have hLt := bigEndian_lt bytes
  rw [h] at hLt
  exact UInt64.toNat_ofNat_of_lt' hLt

theorem toNat_swapBytes :
    (swapBytes (.ofNat (bigEndian bytes))).toNat = bigEndian bytes.reverse := by
  rw [swapBytes, toNat_ofNat_bigEndian h, ← h, littleEndian_bigEndian,
    toNat_ofNat_bigEndian (bytes.length_reverse.trans h)]

theorem littleEndian_swapBytes :
    littleEndian 8 (swapBytes (.ofNat (bigEndian bytes))).toNat = bytes := by
  have hTurned := littleEndian_bigEndian bytes.reverse
  rwa [bytes.length_reverse, h, bytes.reverse_reverse, ← toNat_swapBytes h] at hTurned

end

end Murmur

namespace Uuid

theorem hashBytes_eq (u : Uuid) : u.hashBytes = u.bytes := by
  have hTake : (u.bytes.take 8).length = 8 := by rw [List.length_take, u.length_bytes]; rfl
  have hDrop : (u.bytes.drop 8).length = 8 := by rw [List.length_drop, u.length_bytes]
  rw [hashBytes, halves, Murmur.littleEndian_swapBytes hTake, Murmur.littleEndian_swapBytes hDrop,
    List.take_append_drop]

theorem hash_eq (u : Uuid) : u.hash = Murmur.hash u.bytes := by rw [hash, hashBytes_eq]

example : (read "f79c3e09-677c-4bbd-a479-3f349cb785e7".toList).map hash = some 1488055340 := rfl

end Uuid

end Bucketing
