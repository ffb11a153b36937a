import Bucketing.Text.Basic
import Bucketing.Text.Hex

/-! # Universally unique identifiers

Sixteen bytes, written as five groups of hexadecimal digits.
-/
namespace Bucketing

structure Uuid where
  bytes : List UInt8
  length_bytes : bytes.length = 16
  deriving DecidableEq, Repr

namespace Uuid

def ofBytes? (bytes : List UInt8) : Option Uuid :=
  if h : bytes.length = 16 then some ⟨bytes, h⟩ else none

instance : Ord Uuid := ⟨fun a b => compare a.bytes b.bytes⟩

def groups : List Nat := [8, 4, 4, 4, 12]

/-- Digits cut into groups of the given lengths, a hyphen between two groups. -/
def hyphenate : List Nat → List Char → List Char
  | [], digits => digits
  | [_], digits => digits
  | n :: ns, digits => digits.take n ++ '-' :: hyphenate ns (digits.drop n)

/-- The digits of hyphenated groups of exactly the given lengths. -/
def unhyphenate? : List Nat → List Char → Option (List Char)
  | [], _ => none
  | [n], text => if text.length = n then some text else none
  | n :: ns, text =>
    match text.drop n with
    | '-' :: rest => (unhyphenate? ns rest).map (text.take n ++ ·)
    | _ => none

def text (u : Uuid) : List Char := hyphenate groups (Hex.encode u.bytes)

/-- The hyphenated digits inside one of the admitted wrappings: braces, or a URN prefix, whose letters
may be of either case like those of any URN. -/
def unwrap? (text : List Char) : Option (List Char) :=
  match text with
  | '{' :: rest => Text.before? ['}'] rest
  | _ => some (if Text.lower (text.take 9) = "urn:uuid:".toList then text.drop 9 else text)

/-- Either the bare digits, or hyphenated groups that may stand in braces or behind a URN prefix.
Digits are read in either case. -/
def read (text : List Char) : Option Uuid := do
  let digits ←
    if text.length = 32 then some text
    else unwrap? text >>= unhyphenate? groups
  let bytes ← Hex.decode digits
  ofBytes? bytes

end Uuid

end Bucketing
