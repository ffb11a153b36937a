import Bucketing.Bucketer.Assigner
import Bucketing.Predicate.Evaluation

/-! # Predicates

A predicate is on a column that is known by name only, or on a term whose type is known. Its operand
has the shape that its operation takes.
-/
namespace Bucketing

/-! ## On named columns -/

structure NamedPredicate where
  op : Operation
  name : String
  operand : Operand

namespace NamedPredicate

def wellShaped (op : Operation) : Operand → Bool
  | .none => op.isUnary
  | .literal v => op.takesLiteral && !v.isNull
  | .set vs => op.takesSet && vs.all (!·.isNull)

def make (op : Operation) (name : String) (operand : Operand) : Except Fault NamedPredicate :=
  if wellShaped op operand then .ok ⟨op, name, operand⟩ else .error (.operandInvalid operand op)

/-- The literals of a set are brought to their normal form first. -/
def makeNormal (op : Operation) (name : String) : Operand → Except Fault NamedPredicate
  | .set vs => make op name (.set (Literals.normalize vs))
  | operand => make op name operand

def test (p : NamedPredicate) (value : Option Value) : Except Fault Bool :=
  p.op.test value p.operand

def literalText : Value → List Char
  | .utf8 s => '\'' :: s.toList ++ ['\'']
  | v => v.text

def operandText : Operand → List Char
  | .none => []
  | .literal v => ' ' :: literalText v
  | .set vs => " (".toList ++ ", ".toList.intercalate (vs.map literalText) ++ [')']

def text (p : NamedPredicate) : List Char :=
  p.name.toList ++ ' ' :: p.op.symbol.toList ++ operandText p.operand

instance : ToString NamedPredicate := ⟨fun p => String.ofList p.text⟩

end NamedPredicate

/-! ## On terms

A predicate on a column, or on the bucket of a column, is tested on values of the column.
-/

namespace Term

/-- The value of the term, given that of the column; a null gives none. -/
def eval (term : Term) (value : Option Value) : Except Fault (Option Value) :=
  match Operation.present value with
  | none => .ok none
  | some v =>
    match term with
    | .column _ => .ok (some v)
    | .bucketed b c => Option.map .int32 <$> b.bucketOf c.type (some v)

def checkLiteral (term : Term) (v : Value) : Except Fault Unit :=
  if v.isNull then .error (.nullLiteral term)
  else if v.fits term.type then .ok ()
  else .error (.literalMistyped v term)

def checkLiterals (term : Term) : List Value → Except Fault Unit
  | [] => .ok ()
  | v :: vs => do
    term.checkLiteral v
    term.checkLiterals vs

end Term

structure TermPredicate where
  op : Operation
  term : Term
  operand : Operand

namespace TermPredicate

/-- The operand has the shape that the operation takes, and its literals are of the type of the
term. -/
def make (op : Operation) (term : Term) : Operand → Except Fault TermPredicate
  | .none => if op.isUnary then .ok ⟨op, term, .none⟩ else .error (.notUnary op)
  | .literal v =>
    if op.takesLiteral then do
      term.checkLiteral v
      if (op == .startsWith || op == .notStartsWith) && term.type != .utf8 then
        throw (.termNotText op term.type)
      return ⟨op, term, .literal v⟩
    else .error (.takesNoLiteral op)
  | .set vs =>
    if op.takesSet then do
      let vs := Literals.normalize vs
      term.checkLiterals vs
      return ⟨op, term, .set vs⟩
    else .error (.takesNoSet op)

def test (p : TermPredicate) (value : Option Value) : Except Fault Bool := do
  p.op.test (← p.term.eval value) p.operand

def operandText : Operand → List Char
  | .none => []
  | .literal v => ' ' :: v.text
  | .set vs => " (".toList ++ ", ".toList.intercalate (vs.map Value.text) ++ [')']

def text (p : TermPredicate) : List Char :=
  p.term.text ++ ' ' :: p.op.symbol.toList ++ operandText p.operand

instance : ToString TermPredicate := ⟨fun p => String.ofList p.text⟩

end TermPredicate

end Bucketing
