import Bucketing.ColumnType.Basic

/-! # Bucketers

The partition transform that maps values to one of `count` buckets, and what it can take them from.
-/
namespace Bucketing

/-- What a bucketer hashes: one column of a scalar type, or several columns as a record. -/
inductive Source where
  | int32
  | int64
  | float32
  | float64
  | decimal
  | utf8
  | binary
  | uuid
  | record
  deriving DecidableEq, Repr

namespace Source

def kind : Source → Kind
  | .int32 => .int32
  | .int64 => .int64
  | .float32 => .float32
  | .float64 => .float64
  | .decimal => .decimal
  | .utf8 => .utf8
  | .binary => .binary
  | .uuid => .uuid
  | .record => .record

def text : Source → String
  | .record => "Struct"
  | source => "Scalar(" ++ source.kind.name ++ ")"

def ofType? : ColumnType → Option Source
  | .int32 => some .int32
  | .int64 => some .int64
  | .float32 => some .float32
  | .float64 => some .float64
  | .decimal _ _ => some .decimal
  | .utf8 => some .utf8
  | .binary => some .binary
  | .uuid => some .uuid
  | .record _ => some .record
  | .boolean | .list _ | .map _ _ => none

end Source

structure Bucketer where
  count : Int32
  count_pos : 0 < count
  deriving DecidableEq, Repr

namespace Bucketer

def canBucket (type : ColumnType) : Bool := (Source.ofType? type).isSome

/-- Bucket numbers are 32-bit integers, whatever is bucketed. -/
def resultType : ColumnType := .int32

def text (b : Bucketer) : List Char :=
  "bucket[".toList ++ Numeral.write b.count.toInt ++ [']']

instance : ToString Bucketer := ⟨fun b => String.ofList b.text⟩

end Bucketer

end Bucketing
