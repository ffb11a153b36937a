import Bucketing.Text.Basic

/-! # Hexadecimal text of bytes

Two digits a byte, the high half first. Digits are written in lower case and read in either.
-/
namespace Bucketing.Hex

def digit (n : Nat) : Char := Nat.digitChar n

def digit? (c : Char) : Option UInt8 :=
  if '0' ≤ c ∧ c ≤ '9' then some (UInt8.ofNat (c.toNat - '0'.toNat))
  else if 'a' ≤ c ∧ c ≤ 'f' then some (UInt8.ofNat (c.toNat - 'a'.toNat + 10))
  else if 'A' ≤ c ∧ c ≤ 'F' then some (UInt8.ofNat (c.toNat - 'A'.toNat + 10))
  else none

def encode : List UInt8 → List Char
  | [] => []
  | b :: bytes => digit (b.toNat / 16) :: digit (b.toNat % 16) :: encode bytes

def decode : List Char → Option (List UInt8)
  | [] => some []
  | [_] => none
  | high :: low :: text => do
    let h ← digit? high
    let l ← digit? low
    let bytes ← decode text
    return (h * 16 + l) :: bytes

/-- The text behind an optional `0x`. -/
def body (text : List Char) : List Char := (Text.after? "0x".toList text).getD text

/-- Reads texts one after the other and gathers the bytes of each in its buffer. What a text leaves
there, also one that turns out not to be digits, stays until the next is gathered. -/
structure Reader where
  buffer : Array UInt8
  deriving DecidableEq, Repr

namespace Reader

def empty : Reader := ⟨#[]⟩

/-- Bytes for pairs of digits, up to the first pair that is none, and whether there was no such pair. -/
def pushPairs (r : Reader) : List UInt8 → Bool × Reader
  | high :: low :: codes =>
    match digit? (.ofUInt8 high), digit? (.ofUInt8 low) with
    | some h, some l => pushPairs ⟨r.buffer.push (h * 16 + l)⟩ codes
    | _, _ => (false, r)
  | _ => (true, r)

/-- The text is read by the bytes that encode its characters. -/
def read (r : Reader) (text : List Char) : Option (List UInt8) × Reader :=
  let codes := (body text).flatMap String.utf8EncodeChar
  if codes.length % 2 = 0 then
    let (complete, r) := pushPairs { r with buffer := #[] } codes
    (if complete then some r.buffer.toList else none, r)
  else (none, r)

def readAll (r : Reader) : List (List Char) → List (Option (List UInt8)) × Reader
  | [] => ([], r)
  | text :: texts =>
    let (answer, r) := r.read text
    let (answers, r) := r.readAll texts
    (answer :: answers, r)

end Reader

/-- Bytes written in text, behind an optional `0x`. -/
def read (text : List Char) : Option (List UInt8) := (Reader.empty.read text).1

theorem digit?_digit : ∀ n < 16, digit? (digit n) = some (UInt8.ofNat n) := by
  decide

theorem decode_encode (bytes : List UInt8) : decode (encode bytes) = some bytes := by
  induction bytes with
  | nil => rfl
  | cons b bytes ih =>
    have hb := b.toNat_lt
    have hByte : UInt8.ofNat (b.toNat / 16) * 16 + UInt8.ofNat (b.toNat % 16) = b := by
      apply UInt8.toNat_inj.mp
      simp only [UInt8.toNat_add, UInt8.toNat_mul, UInt8.toNat_ofNat', UInt8.reduceToNat]
      omega
    simp [encode, decode, digit?_digit (b.toNat / 16) (by omega),
      digit?_digit (b.toNat % 16) (by omega), ih, hByte]

end Bucketing.Hex
