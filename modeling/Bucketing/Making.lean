import Bucketing.Fault

/-! # Checked construction

Decimals, column types and records are made by checks. A decimal is admitted where its precision is one
that a column can have and its digits fit in it. A record type has no two fields of one identifier or
name, and a record has one value for every field of its type: a value that fits the type of the field,
and no null where the field is required.
-/
namespace Bucketing

namespace Decimal

def checkPrecision (precision : UInt8) : Except Fault Unit :=
  if 1 ≤ precision.toNat ∧ precision.toNat ≤ maxPrecision then .ok ()
  else .error (.precisionOutOfRange precision)

def make (precision : UInt8) (scale : Int8) (unscaled : Int128) : Except Fault Decimal := do
  checkPrecision precision
  if (Nat.toDigits 10 unscaled.toInt.natAbs).length ≤ precision.toNat then
    return ⟨precision, scale, unscaled⟩
  else throw (.precisionExceeded unscaled precision)

end Decimal

namespace ColumnType

def makeDecimal (precision : UInt8) (scale : Int8) : Except Fault ColumnType := do
  Decimal.checkPrecision precision
  return .decimal precision scale

/-- The first field that repeats an identifier or a name of those before it. -/
def checkFieldsAfter : List Field → List Field → Except Fault Unit
  | _, [] => .ok ()
  | seen, f :: fields =>
    if seen.any (·.id == f.id) then .error (.duplicateFieldId f.id f.name)
    else if seen.any (·.name == f.name) then .error (.duplicateFieldName f.name)
    else checkFieldsAfter (f :: seen) fields

def checkFields (fields : List Field) : Except Fault Unit := checkFieldsAfter [] fields

def makeRecord (fields : List Field) : Except Fault ColumnType := do
  checkFields fields
  return .record fields

/-! ## Types by their names -/

def names : List (String × ColumnType) :=
  [("boolean", .boolean), ("bool", .boolean), ("int", .int32), ("int32", .int32),
    ("integer", .int32), ("long", .int64), ("int64", .int64), ("bigint", .int64),
    ("float", .float32), ("float32", .float32), ("double", .float64), ("float64", .float64),
    ("string", .utf8), ("utf8", .utf8), ("text", .utf8), ("binary", .binary), ("bytes", .binary),
    ("uuid", .uuid)]

def decimalParameters? (name : List Char) : Option (List Char × List Char) := do
  let inside ← (Text.after? "decimal128(".toList name).or (Text.after? "decimal(".toList name)
  let parameters ← Text.before? [')'] inside
  Text.cut? ',' parameters

def ofText (text : String) : Except Fault ColumnType :=
  let name := Text.lower (Text.trim text.toList)
  match names.lookup (String.ofList name), decimalParameters? name with
  | some type, _ => .ok type
  | none, none => .error (.unknownType text)
  | none, some (precision, scale) => do
    let precision ← (Numeral.readUInt8 (Text.trim precision)).mapError .badNumeral
    let scale ← (Numeral.readInt8 (Text.trim scale)).mapError .badNumeral
    if Decimal.maxPrecision < precision.toNat then throw (.precisionAboveMax precision)
    makeDecimal precision scale

end ColumnType

namespace Record

def checkCell (f : Field) (v : Value) : Except Fault Unit :=
  if v.isNull && !f.nullable then .error (.requiredFieldNull f.name)
  else if v.fits f.type then .ok ()
  else .error (.fieldValueMistyped v f.name f.type)

def checkCells : Record → Except Fault Unit
  | [] => .ok ()
  | (f, v) :: cells => do
    checkCell f v
    checkCells cells

def ofPairs (pairs : List (Field × Value)) : Except Fault Record := do
  ColumnType.checkFields (pairs.map Prod.fst)
  checkCells pairs
  return pairs

def make (fields : List Field) (values : List Value) : Except Fault Record := do
  ColumnType.checkFields fields
  if fields.length = values.length then
    checkCells (fields.zip values)
    return fields.zip values
  else throw (.arityMismatch values.length fields.length)

end Record

end Bucketing
