import Bucketing.Value.Hash

/-! # Assigning values to buckets

A bucketer bound to a column type assigns every value of that type to a bucket by its canonical
hash, and a null to none.
-/
namespace Bucketing

structure Assigner where
  bucketer : Bucketer
  type : ColumnType
  source : Source
  source_eq : Source.ofType? type = some source

namespace Bucketer

def make (count : Int32) : Except Fault Bucketer :=
  if h : 0 < count then .ok ⟨count, h⟩ else .error (.countNotPositive count)

def bind (b : Bucketer) (type : ColumnType) : Except Fault Assigner :=
  match h : Source.ofType? type with
  | some source => .ok ⟨b, type, source, h⟩
  | none => .error (.typeNotBucketed type)

/-- The bucket of a hash, by its low 31 bits. -/
def ofHash (b : Bucketer) (hash : Int32) : Int32 := (hash &&& Int32.maxValue) % b.count

end Bucketer

namespace Assigner

def hash (a : Assigner) (v : Value) : Except Fault Int32 :=
  if v.fits a.type then
    match a.source, v with
    | .int32, .int32 n => .ok (Murmur.hashInt64 n.toInt64)
    | .int64, .int64 n => .ok (Murmur.hashInt64 n)
    | .float32, .float32 x => .ok x.widen.hash
    | .float64, .float64 x => .ok x.hash
    | .decimal, .decimal d => .ok d.hash
    | .utf8, .utf8 s => .ok (hashText s.toList)
    | .binary, .binary bytes => .ok (Murmur.hash bytes)
    | .uuid, .uuid u => .ok u.hash
    | .record, .record r => Record.hash r
    | source, v => .error (.valueNotOfSource v source)
  else .error (.valueNotOfType v a.type)

def assign (a : Assigner) (v : Value) : Except Fault (Option Int32) :=
  if v.isNull then .ok none else (some ∘ a.bucketer.ofHash) <$> a.hash v

/-- A row without a value has no bucket, like a null. -/
def assignRow (a : Assigner) : Option Value → Except Fault (Option Int32)
  | some v => a.assign v
  | none => .ok none

end Assigner

/-- The bucket of a row of a column, which has to be of a type that can be bucketed even where the
row has no value. -/
def Bucketer.bucketOf (b : Bucketer) (type : ColumnType) (row : Option Value) :
    Except Fault (Option Int32) := do
  (← b.bind type).assignRow row

end Bucketing
