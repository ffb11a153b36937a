import Bucketing.Predicate.Basic

/-! # Faults

Why an operation cannot answer. A fault has a message, and where another fault lies behind it, a
source.
-/
namespace Bucketing

inductive Fault where
  | notComparable (a b : Value)
  | recordTypesDiffer (a b : ColumnType)
  | rescaleOverflow (d : Decimal) (scale : Int8)
  | precisionOutOfRange (precision : UInt8)
  | precisionAboveMax (precision : UInt8)
  | precisionExceeded (unscaled : Int128) (precision : UInt8)
  | duplicateFieldId (id : Int32) (name : String)
  | duplicateFieldName (name : String)
  | arityMismatch (values fields : Nat)
  | requiredFieldNull (name : String)
  | fieldValueMistyped (v : Value) (name : String) (type : ColumnType)
  | nullNotHashed
  | booleanNotHashed
  | nestedFieldNotHashed (name : String) (type : ColumnType)
  | countNotPositive (count : Int32)
  | typeNotBucketed (type : ColumnType)
  | valueNotOfType (v : Value) (type : ColumnType)
  | valueNotOfSource (v : Value) (source : Source)
  | bucketerUnreadable (text : String)
  | unknownType (text : String)
  | unknownOperation (text : String)
  | valueUnreadable (text : String) (type : ColumnType)
  | operandInvalid (operand : Operand) (op : Operation)
  | prefixMistyped (v lead : Value)
  | notUnary (op : Operation)
  | takesNoLiteral (op : Operation)
  | takesNoSet (op : Operation)
  | nullLiteral (term : Term)
  | literalMistyped (v : Value) (term : Term)
  | termNotText (op : Operation) (type : ColumnType)
  | takesNoValues (op : Operation)
  | takesOneValue (op : Operation) (got : Nat)
  | missing (what : String)
  | notImplemented (what : String)
  | formatting
  | io (detail : String)
  | message (text : String)
  | numeral (context : String) (defect : Numeral.Defect)
  | within (context : String) (cause : Fault)

namespace Fault

/-- A numeral that could not be read where nothing more is to be said. -/
def badNumeral (defect : Numeral.Defect) : Fault := .numeral "Failed to parse integer" defect

def text : Fault → String
  | .notComparable a b => s!"Cannot compare {a} with {b}"
  | .recordTypesDiffer a b => s!"Cannot compare records of different types: {a} and {b}"
  | .rescaleOverflow d scale =>
    s!"Overflow rescaling {String.ofList d.text} to scale {scale.toInt}"
  | .precisionOutOfRange p => s!"Precision {p.toNat} must be between 1 and {Decimal.maxPrecision}"
  | .precisionAboveMax p => s!"Decimal precision {p.toNat} exceeds max of {Decimal.maxPrecision}"
  | .precisionExceeded n p =>
    s!"{n.toInt} cannot be stored in decimal with a precision of {p.toNat}"
  | .duplicateFieldId id name => s!"Duplicate field id {id.toInt} in struct (field '{name}')"
  | .duplicateFieldName name => s!"Duplicate field name '{name}' in struct"
  | .arityMismatch values fields => s!"Received {values} values for struct with {fields} fields"
  | .requiredFieldNull name => s!"Required field '{name}' cannot be null"
  | .fieldValueMistyped v name type => s!"Value {v} is not valid for field '{name}' of type {type}"
  | .nullNotHashed => "Cannot hash a null value"
  | .booleanNotHashed => "Cannot hash a boolean value"
  | .nestedFieldNotHashed name type =>
    s!"Cannot bucket on multiple columns with nested field '{name}' of type {type}"
  | .countNotPositive n => s!"Invalid number of buckets: {n.toInt} (must be > 0)"
  | .typeNotBucketed type => s!"Cannot bucket by type: {type}"
  | .valueNotOfType v type => s!"Value {v} doesn't match bound type {type}"
  | .valueNotOfSource v source => s!"Value {v} doesn't match bucket source {source.text}"
  | .bucketerUnreadable s => s!"Invalid bucket transform: '{s}'"
  | .unknownType s => s!"Unknown data type: '{s}'"
  | .unknownOperation s => s!"Unknown predicate operation: '{s}'"
  | .valueUnreadable s type => s!"Failed to parse '{s}' as {type}"
  | .operandInvalid operand op => s!"Invalid operand {operand} for operation {op}"
  | .prefixMistyped v lead => s!"STARTS WITH requires strings, got {v} and {lead}"
  | .notUnary op => s!"{op} is not a unary operation"
  | .takesNoLiteral op => s!"{op} does not take a single literal"
  | .takesNoSet op => s!"{op} does not take a set"
  | .nullLiteral term => s!"Null literal not allowed for term {term}, use IS NULL"
  | .literalMistyped v term => s!"Literal {v} does not match type {term.type} of term {term}"
  | .termNotText op type => s!"{op} requires a string term, got {type}"
  | .takesNoValues op => s!"{op} takes no values"
  | .takesOneValue op got => s!"{op} takes exactly one value, got {got}"
  | .missing what => s!"Missing required field '{what}'"
  | .notImplemented what => s!"Not yet implemented: {what}"
  | .formatting => "Format error"
  | .io _ => "IO error"
  | .message text => text
  | .numeral context _ => context
  | .within context _ => context

def formattingDetail : String := "an error occurred when formatting an argument"

def withSource (text source : String) : String := text ++ "\nError source: " ++ source

/-- The message, and on a line of its own the source. -/
def describe : Fault → String
  | .formatting => withSource (text .formatting) formattingDetail
  | .io detail => withSource (text (.io detail)) detail
  | .numeral context defect => withSource context defect.message
  | .within context cause => withSource context cause.describe
  | fault => fault.text

def source? : Fault → Option String
  | .formatting => some formattingDetail
  | .io detail => some detail
  | .numeral _ defect => some defect.message
  | .within _ cause => some cause.describe
  | _ => none

theorem describe_eq (fault : Fault) :
    fault.describe = fault.source?.elim fault.text (withSource fault.text) := by
  cases fault <;> rfl

instance : ToString Fault := ⟨describe⟩

end Fault

end Bucketing
