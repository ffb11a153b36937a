import Bucketing.Bucketer.Basic
import Bucketing.Text.Basic
import Bucketing.Value.Basic

/-! # The parts of predicates

A predicate has an operation, which says by its shape what operand it takes: none, one literal or a
set. It is about a term, a column or the bucket of a column.
-/
namespace Bucketing

/-! ## Operations -/

inductive Operation where
  | isNull
  | notNull
  | isNaN
  | notNaN
  | less
  | atMost
  | greater
  | atLeast
  | equal
  | notEqual
  | startsWith
  | notStartsWith
  | isIn
  | notIn
  deriving DecidableEq, Repr

namespace Operation

def isUnary : Operation → Bool
  | .isNull | .notNull | .isNaN | .notNaN => true
  | _ => false

def takesLiteral : Operation → Bool
  | .less | .atMost | .greater | .atLeast | .equal | .notEqual | .startsWith | .notStartsWith => true
  | _ => false

def takesSet : Operation → Bool
  | .isIn | .notIn => true
  | _ => false

/-- The opposite operation. Of two opposite orderings neither matches a row that has no place in the
order. -/
def negate : Operation → Operation
  | .isNull => .notNull
  | .notNull => .isNull
  | .isNaN => .notNaN
  | .notNaN => .isNaN
  | .less => .atLeast
  | .atMost => .greater
  | .greater => .atMost
  | .atLeast => .less
  | .equal => .notEqual
  | .notEqual => .equal
  | .startsWith => .notStartsWith
  | .notStartsWith => .startsWith
  | .isIn => .notIn
  | .notIn => .isIn

@[simp] theorem negate_negate (op : Operation) : op.negate.negate = op := by
  cases op <;> rfl

def symbol : Operation → String
  | .isNull => "IS NULL"
  | .notNull => "IS NOT NULL"
  | .isNaN => "IS NAN"
  | .notNaN => "IS NOT NAN"
  | .less => "<"
  | .atMost => "<="
  | .greater => ">"
  | .atLeast => ">="
  | .equal => "="
  | .notEqual => "!="
  | .startsWith => "STARTS WITH"
  | .notStartsWith => "NOT STARTS WITH"
  | .isIn => "IN"
  | .notIn => "NOT IN"

instance : ToString Operation := ⟨symbol⟩

def name : Operation → String
  | .isNull => "is_null"
  | .notNull => "not_null"
  | .isNaN => "is_nan"
  | .notNaN => "not_nan"
  | .less => "lt"
  | .atMost => "lt_eq"
  | .greater => "gt"
  | .atLeast => "gt_eq"
  | .equal => "eq"
  | .notEqual => "not_eq"
  | .startsWith => "starts_with"
  | .notStartsWith => "not_starts_with"
  | .isIn => "in"
  | .notIn => "not_in"

def all : List Operation :=
  [.isNull, .notNull, .isNaN, .notNaN, .less, .atMost, .greater, .atLeast, .equal, .notEqual,
    .startsWith, .notStartsWith, .isIn, .notIn]

def ofName? (text : String) : Option Operation := all.find? (·.name == text)

theorem ofName?_name (op : Operation) : ofName? op.name = some op := by
  cases op <;> decide

def aliases : List (String × Operation) :=
  [("is_not_null", .notNull), ("is_not_nan", .notNaN), ("<", .less), ("<=", .atMost),
    (">", .greater), (">=", .atLeast), ("=", .equal), ("==", .equal), ("!=", .notEqual),
    ("<>", .notEqual)]

/-- By name or alias. Case and surrounding blanks do not matter, and a hyphen or a space stands for
an underscore. -/
def ofText? (text : String) : Option Operation :=
  let key := (Text.lower (Text.trim text.toList)).map fun c =>
    if c == '-' || c == ' ' then '_' else c
  (ofName? (String.ofList key)).or (aliases.lookup (String.ofList key))

end Operation

/-! ## Operands -/

inductive Operand where
  | none
  | literal (v : Value)
  | set (vs : List Value)

namespace Operand

def tagged (v : Value) : List Char :=
  match v.kind?, v with
  | some k, .utf8 s => k.name.toList ++ '(' :: Text.quote s.toList ++ [')']
  | some k, v => k.name.toList ++ '(' :: v.text ++ [')']
  | .none, _ => "Null".toList

/-- The operand as an invalid one is shown, with the kind of each of its values. -/
def text : Operand → List Char
  | .none => "None".toList
  | .literal v => "Literal(".toList ++ tagged v ++ [')']
  | .set vs => "Set([".toList ++ ", ".toList.intercalate (vs.map tagged) ++ "])".toList

instance : ToString Operand := ⟨fun o => String.ofList o.text⟩

end Operand

/-! ## Terms -/

/-- A column of a table, resolved to its type. -/
structure Column where
  name : String
  type : ColumnType

inductive Term where
  | column (c : Column)
  | bucketed (b : Bucketer) (c : Column)

namespace Term

def origin : Term → Column
  | .column c => c
  | .bucketed _ c => c

def type : Term → ColumnType
  | .column c => c.type
  | .bucketed _ _ => Bucketer.resultType

def text : Term → List Char
  | .column c => c.name.toList
  | .bucketed b c => b.text ++ '(' :: c.name.toList ++ [')']

instance : ToString Term := ⟨fun t => String.ofList t.text⟩

end Term

end Bucketing
