import Bucketing.ColumnType.Basic
import Bucketing.Decimal.Basic
import Bucketing.Floating.Text
import Bucketing.Uuid

/-! # Values

A single value of a column, and records of values, which are values again.
-/
namespace Bucketing

inductive Value where
  | null
  | boolean (b : Bool)
  | int32 (n : Int32)
  | int64 (n : Int64)
  | float32 (x : Floating .single)
  | float64 (x : Floating .double)
  | decimal (d : Decimal)
  | utf8 (s : String)
  | binary (bytes : List UInt8)
  | uuid (u : Uuid)
  /-- Fields in their physical order, each with its value. -/
  | record (cells : List (Field × Value))

abbrev Record := List (Field × Value)

namespace Record

def fields (r : Record) : List Field := r.map Prod.fst

def values (r : Record) : List Value := r.map Prod.snd

def type (r : Record) : ColumnType := .record (fields r)

/-- The value of the field of a name, unless it is null. -/
def get? (r : Record) (name : String) : Option Value :=
  match r.find? (·.1.name == name) with
  | none => none
  | some (_, .null) => none
  | some (_, v) => some v

end Record

namespace Value

def kind? : Value → Option Kind
  | .null => none
  | .boolean _ => some .boolean
  | .int32 _ => some .int32
  | .int64 _ => some .int64
  | .float32 _ => some .float32
  | .float64 _ => some .float64
  | .decimal _ => some .decimal
  | .utf8 _ => some .utf8
  | .binary _ => some .binary
  | .uuid _ => some .uuid
  | .record _ => some .record

def isNull : Value → Bool
  | .null => true
  | _ => false

def isNaN : Value → Bool
  | .float32 x => x.isNaN
  | .float64 x => x.isNaN
  | _ => false

/-- Whether a column of the type can hold the value. A decimal needs the column's very scale, a
record its very type. -/
def fits : Value → ColumnType → Bool
  | .null, _ => true
  | .decimal d, .decimal precision scale => d.scale == scale && d.precision ≤ precision
  | .record r, .record fields => decide (Record.fields r = fields)
  | v, t => v.kind? == some t.kind

mutual
def text : Value → List Char
  | .null => "NULL".toList
  | .boolean b => if b then "true".toList else "false".toList
  | .int32 n => Numeral.write n.toInt
  | .int64 n => Numeral.write n.toInt
  | .float32 x => x.text
  | .float64 x => x.text
  | .decimal d => d.text
  | .utf8 s => s.toList
  | .binary bytes => Hex.encode bytes
  | .uuid u => u.text
  | .record cells => '{' :: cellsText cells ++ ['}']

def cellsText : Record → List Char
  | [] => []
  | [(f, v)] => f.name.toList ++ ": ".toList ++ v.text
  | (f, v) :: cells => f.name.toList ++ ": ".toList ++ v.text ++ ", ".toList ++ cellsText cells
end

instance : ToString Value := ⟨fun v => String.ofList v.text⟩

mutual
/-- Floats are equal by value, so that a NaN differs from itself and the zeros are equal. Decimals
are equal with their precision and scale, records with their type. -/
def equal : Value → Value → Bool
  | .null, .null => true
  | .boolean a, .boolean b => a == b
  | .int32 a, .int32 b => a == b
  | .int64 a, .int64 b => a == b
  | .float32 a, .float32 b => a.equal b
  | .float64 a, .float64 b => a.equal b
  | .decimal a, .decimal b => a == b
  | .utf8 a, .utf8 b => a == b
  | .binary a, .binary b => a == b
  | .uuid a, .uuid b => a == b
  | .record a, .record b => equalCells a b
  | _, _ => false

def equalCells : Record → Record → Bool
  | [], [] => true
  | (f, v) :: cells, (g, w) :: others => decide (f = g) && v.equal w && equalCells cells others
  | _, _ => false
end

end Value

end Bucketing
