import Bucketing.Text.Numeral

/-! # Column types

The types that a column may have. Lists and maps cannot be bucketed and are there so that a record
can be found to contain them.
-/
namespace Bucketing

/-- What a type is apart from its parameters. -/
inductive Kind where
  | boolean
  | int32
  | int64
  | float32
  | float64
  | decimal
  | utf8
  | binary
  | uuid
  | record
  | list
  | map
  deriving DecidableEq, Repr

def Kind.name : Kind → String
  | .boolean => "Boolean"
  | .int32 => "Int32"
  | .int64 => "Int64"
  | .float32 => "Float32"
  | .float64 => "Float64"
  | .decimal => "Decimal128"
  | .utf8 => "Utf8"
  | .binary => "Binary"
  | .uuid => "Uuid"
  | .record => "Struct"
  | .list => "List"
  | .map => "Map"

/-- A named member of a record type. Its identifier stays when the member is renamed or moved. -/
structure FieldOf (τ : Type) where
  id : Int32
  name : String
  type : τ
  nullable : Bool
  deriving DecidableEq, Repr

inductive ColumnType where
  | boolean
  | int32
  | int64
  | float32
  | float64
  | decimal (precision : UInt8) (scale : Int8)
  | utf8
  | binary
  | uuid
  | record (fields : List (FieldOf ColumnType))
  | list (item : ColumnType)
  | map (key value : ColumnType)

abbrev Field := FieldOf ColumnType

namespace ColumnType

def kind : ColumnType → Kind
  | .boolean => .boolean
  | .int32 => .int32
  | .int64 => .int64
  | .float32 => .float32
  | .float64 => .float64
  | .decimal _ _ => .decimal
  | .utf8 => .utf8
  | .binary => .binary
  | .uuid => .uuid
  | .record _ => .record
  | .list _ => .list
  | .map _ _ => .map

def isRecord (t : ColumnType) : Bool := t.kind == .record

def isNested (t : ColumnType) : Bool := t.kind == .record || t.kind == .list || t.kind == .map

mutual
def text : ColumnType → List Char
  | .decimal precision scale =>
    "Decimal128(".toList ++ Nat.toDigits 10 precision.toNat ++ ',' :: Numeral.write scale.toInt ++
      [')']
  | .record fields => "Struct \x7b".toList ++ fieldsText fields ++ ['}']
  | .list item => "List[".toList ++ item.text ++ [']']
  | .map key value => "Map[".toList ++ key.text ++ ", ".toList ++ value.text ++ [']']
  | .boolean => Kind.boolean.name.toList
  | .int32 => Kind.int32.name.toList
  | .int64 => Kind.int64.name.toList
  | .float32 => Kind.float32.name.toList
  | .float64 => Kind.float64.name.toList
  | .utf8 => Kind.utf8.name.toList
  | .binary => Kind.binary.name.toList
  | .uuid => Kind.uuid.name.toList

def fieldsText : List Field → List Char
  | [] => []
  | [⟨_, name, type, _⟩] => name.toList ++ ": ".toList ++ type.text
  | ⟨_, name, type, _⟩ :: fields =>
    name.toList ++ ": ".toList ++ type.text ++ ", ".toList ++ fieldsText fields
end

instance : ToString ColumnType := ⟨fun t => String.ofList t.text⟩

mutual
def equal : ColumnType → ColumnType → Bool
  | .decimal p s, .decimal q t => p == q && s == t
  | .record fields, .record others => equalFields fields others
  | .list item, .list other => item.equal other
  | .map k v, .map l w => k.equal l && v.equal w
  | .boolean, .boolean => true
  | .int32, .int32 => true
  | .int64, .int64 => true
  | .float32, .float32 => true
  | .float64, .float64 => true
  | .utf8, .utf8 => true
  | .binary, .binary => true
  | .uuid, .uuid => true
  | _, _ => false

def equalFields : List Field → List Field → Bool
  | [], [] => true
  | ⟨i, m, t, n⟩ :: fields, ⟨j, l, u, o⟩ :: others =>
    i == j && m == l && t.equal u && n == o && equalFields fields others
  | _, _ => false
end

mutual
theorem equal_eq_true_iff : (t u : ColumnType) → (t.equal u = true ↔ t = u)
  | .decimal p s, u => by cases u <;> simp [equal]
  | .record fields, u => by
    cases u <;> simp only [equal, reduceCtorEq, Bool.false_eq_true, record.injEq]
    exact equalFields_eq_true_iff fields _
  | .list item, u => by
    cases u <;> simp only [equal, reduceCtorEq, Bool.false_eq_true, list.injEq]
    exact equal_eq_true_iff item _
  | .map k v, u => by
    cases u <;> simp only [equal, reduceCtorEq, Bool.false_eq_true, map.injEq, Bool.and_eq_true]
    exact and_congr (equal_eq_true_iff k _) (equal_eq_true_iff v _)
  | .boolean, u => by cases u <;> simp [equal]
  | .int32, u => by cases u <;> simp [equal]
  | .int64, u => by cases u <;> simp [equal]
  | .float32, u => by cases u <;> simp [equal]
  | .float64, u => by cases u <;> simp [equal]
  | .utf8, u => by cases u <;> simp [equal]
  | .binary, u => by cases u <;> simp [equal]
  | .uuid, u => by cases u <;> simp [equal]

theorem equalFields_eq_true_iff : (fs gs : List Field) → (equalFields fs gs = true ↔ fs = gs)
  | [], [] => by simp [equalFields]
  | [], _ :: _ => by simp [equalFields]
  | _ :: _, [] => by simp [equalFields]
  | ⟨i, m, t, n⟩ :: fields, ⟨j, l, u, o⟩ :: others => by
    simp only [equalFields, Bool.and_eq_true, beq_iff_eq, equal_eq_true_iff t u,
      equalFields_eq_true_iff fields others, List.cons.injEq, FieldOf.mk.injEq]
    simp only [and_assoc]
end

instance : DecidableEq ColumnType := fun t u => decidable_of_iff _ (equal_eq_true_iff t u)

end ColumnType

end Bucketing
