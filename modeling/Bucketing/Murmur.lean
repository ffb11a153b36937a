/-! # Murmur hash

MurmurHash3 in its 32-bit form, with seed zero. Bytes are absorbed four at a time, the last one to
three of them apart, and the length is mixed in at the end.
-/
namespace Bucketing

namespace Murmur

def rotateLeft (x : UInt32) (n : UInt32) : UInt32 := (x <<< n) ||| (x >>> (32 - n))

/-- Bytes as a word, the least significant first. -/
def word : List UInt8 → UInt32
  | [] => 0
  | b :: bytes => b.toUInt32 ||| (word bytes <<< 8)

def scramble (k : UInt32) : UInt32 := rotateLeft (k * 0xcc9e2d51) 15 * 0x1b873593

def absorb (h k : UInt32) : UInt32 := rotateLeft (h ^^^ scramble k) 13 * 5 + 0xe6546b64

def absorbAll : UInt32 → List UInt8 → UInt32
  | h, a :: b :: c :: d :: bytes => absorbAll (absorb h (word [a, b, c, d])) bytes
  | h, tail => h ^^^ scramble (word tail)

def finish (h : UInt32) : UInt32 :=
  let h := (h ^^^ (h >>> 16)) * 0x85ebca6b
  let h := (h ^^^ (h >>> 13)) * 0xc2b2ae35
  h ^^^ (h >>> 16)

def hash (bytes : List UInt8) : Int32 :=
  (finish (absorbAll 0 bytes ^^^ UInt32.ofNat bytes.length)).toInt32

def littleEndian : Nat → Nat → List UInt8
  | 0, _ => []
  | width + 1, n => UInt8.ofNat n :: littleEndian width (n / 256)

/-- The number that the bytes make, the most significant first. -/
def bigEndian (bytes : List UInt8) : Nat := bytes.foldl (fun n b => n * 256 + b.toNat) 0

def swapBytes (n : UInt64) : UInt64 := .ofNat (bigEndian (littleEndian 8 n.toNat))

def hashInt64 (n : Int64) : Int32 := hash (littleEndian 8 n.toUInt64.toNat)

end Murmur

/-! ## Byte buffers

Bytes still to be read. They may lie in several contiguous chunks, of which a buffer shows one at a time.
Hashing a buffer leaves it as it is, and does not depend on how its bytes are cut into chunks.
-/

/-- How many bytes are left, the first chunk of them, and some of them copied while they are taken off
the front. -/
class Buffer (β : Type) where
  remaining : β → Nat
  chunk : β → List UInt8
  copyBytes : Nat → StateM β (List UInt8)

/-- A buffer in one chunk is hashed in place. Of any other a copy is read to its end. -/
def Buffer.hash {β : Type} [Buffer β] : StateM β Int32 := do
  let b ← get
  if (Buffer.chunk b).length = Buffer.remaining b then
    return Murmur.hash (Buffer.chunk b)
  else
    let copied := (Buffer.copyBytes (Buffer.remaining b)).run b
    return Murmur.hash copied.1

structure ByteBuffer where
  chunks : List (List UInt8)
  deriving DecidableEq, Repr

namespace ByteBuffer

def bytes (b : ByteBuffer) : List UInt8 := b.chunks.flatten

/-- Bytes off the front, chunk by chunk, and the chunks that are left. -/
def takeChunks : Nat → List (List UInt8) → List UInt8 × List (List UInt8)
  | _, [] => ([], [])
  | n, c :: chunks =>
    if n < c.length then (c.take n, c.drop n :: chunks)
    else
      let (bytes, rest) := takeChunks (n - c.length) chunks
      (c ++ bytes, rest)

instance : Buffer ByteBuffer where
  remaining b := b.chunks.foldr (fun chunk count => chunk.length + count) 0
  chunk b := (b.chunks.find? (!·.isEmpty)).getD []
  copyBytes n b :=
    let (bytes, rest) := takeChunks n b.chunks
    (bytes, ⟨rest⟩)

def empty : ByteBuffer := ⟨[]⟩

def ofWindow (bytes : List UInt8) (start stop : Nat) : ByteBuffer :=
  ⟨[(bytes.take stop).drop start]⟩

/-- The bytes from a position, which may lie beyond the end. -/
def ofPosition (bytes : List UInt8) (position : Nat) : ByteBuffer := ⟨[bytes.drop position]⟩

/-- What may be done to a buffer: bytes put at its end, bytes put one after the other at its front, and
bytes dropped from its front. -/
inductive Step where
  | push (bytes : List UInt8)
  | pushFront (bytes : List UInt8)
  | advance (count : Nat)
  deriving DecidableEq, Repr

def apply (b : ByteBuffer) : Step → ByteBuffer
  | .push bytes => ⟨b.chunks ++ [bytes]⟩
  | .pushFront bytes => ⟨bytes.reverse :: b.chunks⟩
  | .advance count => ((Buffer.copyBytes count).run b).2

theorem bytes_takeChunks (n : Nat) (chunks : List (List UInt8)) :
    (takeChunks n chunks).1 = chunks.flatten.take n ∧
      (takeChunks n chunks).2.flatten = chunks.flatten.drop n := by
  induction chunks generalizing n with
  | nil => simp [takeChunks]
  | cons c chunks ih =>
    obtain ⟨hBytes, hRest⟩ := ih (n - c.length)
    simp only [takeChunks, List.flatten_cons, List.take_append, List.drop_append]
    split
    · next h => simp [Nat.sub_eq_zero_of_le (Nat.le_of_lt h)]
    · next h =>
      have hWhole := Nat.le_of_not_lt h
      simp [hBytes, hRest, List.take_of_length_le hWhole, List.drop_eq_nil_of_le hWhole]

theorem length_bytes (b : ByteBuffer) : b.bytes.length = Buffer.remaining b := by
  obtain ⟨chunks⟩ := b
  simp only [bytes, Buffer.remaining]
  induction chunks with
  | nil => rfl
  | cons chunk chunks ih => simp [ih]

end ByteBuffer

end Bucketing
