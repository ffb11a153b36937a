import Bucketing.Fault
import Bucketing.Murmur
import Bucketing.Sorting

/-! # Canonical hashes of values

A value is hashed from canonical bytes, so that equal values hash equally: integers from eight bytes
whatever their width, floats from the bits of the double with one zero and one NaN, decimals from
the fewest bytes of their unscaled integer, records from a text of their fields in the order of
identifiers. Hashes decide where a value is stored, so these bytes may never change within a
version.
-/
namespace Bucketing

/-- To be raised with any change of canonical bytes. -/
def hashVersion : Nat := 1

namespace Floating

def hash (x : Floating .double) : Int32 := Murmur.hash (Murmur.littleEndian 8 x.canonicalBits)

end Floating

def hashText (text : List Char) : Int32 := Murmur.hash (String.ofList text).toUTF8.data.toList

namespace Uuid

/-- The bytes as two numbers, the most significant half first. -/
def halves (u : Uuid) : UInt64 × UInt64 :=
  (.ofNat (Murmur.bigEndian (u.bytes.take 8)), .ofNat (Murmur.bigEndian (u.bytes.drop 8)))

/-- The bytes of each half are swapped, then written with the least significant first. -/
def hashBytes (u : Uuid) : List UInt8 :=
  Murmur.littleEndian 8 (Murmur.swapBytes u.halves.1).toNat ++
    Murmur.littleEndian 8 (Murmur.swapBytes u.halves.2).toNat

def hash (u : Uuid) : Int32 := Murmur.hash u.hashBytes

end Uuid

def Decimal.hash (d : Decimal) : Int32 := Murmur.hash d.unscaledBytes

namespace Record

def separator : Char := '\x1f'

/-- The text of the value of a field; a null has none. -/
def fieldText (r : Record) (name : String) : List Char :=
  match get? r name with
  | some v => v.text
  | none => []

/-- The name of a field and the text of its value, each closed by a separator. -/
def canonicalCell (r : Record) (f : Field) : List Char :=
  f.name.toList ++ separator :: fieldText r f.name ++ [separator]

def fieldsById (r : Record) : List Field := Sorting.sort (fun f g => f.id < g.id) (fields r)

/-- Independent of the physical order of the fields. -/
def canonicalText (r : Record) : Except Fault (List Char) :=
  match (fields r).find? (·.type.isNested) with
  | some f => .error (.nestedFieldNotHashed f.name f.type)
  | none => .ok ((fieldsById r).flatMap (canonicalCell r))

def hash (r : Record) : Except Fault Int32 := hashText <$> canonicalText r

end Record

def Value.hash : Value → Except Fault Int32
  | .int32 n => .ok (Murmur.hashInt64 n.toInt64)
  | .int64 n => .ok (Murmur.hashInt64 n)
  | .float32 x => .ok x.widen.hash
  | .float64 x => .ok x.hash
  | .decimal d => .ok d.hash
  | .utf8 s => .ok (hashText s.toList)
  | .binary bytes => .ok (Murmur.hash bytes)
  | .uuid u => .ok u.hash
  | .record r => Record.hash r
  | .null => .error .nullNotHashed
  | .boolean _ => .error .booleanNotHashed

end Bucketing
