import Bucketing.Projection
import Bucketing.Value.Reading

/-! # Commands

What the program can be asked to do, and the line that it answers.
-/
namespace Bucketing

inductive Command where
  | hash (type : ColumnType) (value : String)
  | bucket (count : Int32) (type : ColumnType) (value : String)
  | project (count : Int32) (direction : Direction) (partitionName : Option String)
      (type : ColumnType) (column : String) (op : Operation) (values : List String)

namespace Command

def readLiterals (type : ColumnType) : List String → Except Fault (List Value)
  | [] => .ok []
  | text :: texts => do
    let v ← Value.read type text
    let vs ← readLiterals type texts
    return v :: vs

/-- The operation decides how many values there have to be. -/
def predicate (op : Operation) (column : Column) (values : List String) :
    Except Fault TermPredicate := do
  let literals ← (readLiterals column.type values).mapError
    (.within "Failed to parse predicate operands")
  if op.isUnary then
    if literals.isEmpty then TermPredicate.make op (.column column) .none
    else throw (.takesNoValues op)
  else if op.takesSet then TermPredicate.make op (.column column) (.set literals)
  else
    match literals with
    | [v] => TermPredicate.make op (.column column) (.literal v)
    | _ => throw (.takesOneValue op literals.length)

/-- The partition column is called after the column unless it is given a name. -/
def partitionNameOf (partitionName : Option String) (column : String) : String :=
  partitionName.getD (column ++ "_bucket")

def answer : Command → Except Fault String
  | .hash type value => do
    let v ← Value.read type value
    return toString (← v.hash).toInt
  | .bucket count type value => do
    let b ← Bucketer.make count
    let a ← b.bind type
    let v ← Value.read type value
    match ← a.assign v with
    | some number => return toString number.toInt
    | none => return "NULL"
  | .project count direction partitionName type column op values => do
    let b ← Bucketer.make count
    let p ← predicate op ⟨column, type⟩ values
    match ← b.project direction (partitionNameOf partitionName column) p with
    | some projected => return toString projected
    | none => return "no predicate"

/-- The answer as a line. Nothing is written where there is a fault. -/
def run (command : Command) : Except Fault String := (· ++ "\n") <$> command.answer

end Command

/-! ## Executing commands

A command is carried out step by step, and writes to an output where it answers. What was written
stays there when a later step is at fault.
-/

/-- Steps that may write to an output. -/
abbrev Writing := EStateM Fault String

/-- What does not know of the output is a step that writes nothing. -/
instance : MonadLift (Except Fault) Writing := ⟨MonadExcept.ofExcept⟩

def writeLine (line : String) : Writing Unit := modify (· ++ (line ++ "\n"))

def Command.execute : Command → Writing Unit
  | .hash type value => do
    let v ← Value.read type value
    let n ← v.hash
    writeLine (toString n.toInt)
  | .bucket count type value => do
    let b ← Bucketer.make count
    let a ← b.bind type
    let v ← Value.read type value
    match ← a.assign v with
    | some number => writeLine (toString number.toInt)
    | none => writeLine "NULL"
  | .project count direction partitionName type column op values => do
    let b ← Bucketer.make count
    let p ← predicate op ⟨column, type⟩ values
    match ← b.project direction (partitionNameOf partitionName column) p with
    | some projected => writeLine (toString projected)
    | none => writeLine "no predicate"

end Bucketing
