import LispContext.Context.Error
import LispContext.Session.Term

/-!
Surveys of errors: errors are built from terms, each is turned into a value on one heap, and all of
them are compared with each other.
-/
namespace LispContext

inductive ErrorTerm where
  | failure (value : Term)
  | unboundVariable (name : Term)
  | wrongType (expected : String) (got : Term)
  | wrongCount (expected got : Nat)
  | unknownCode (code : Char)
  | unknownObject (sender target : String)
  | stackOverflow (depth limit : Nat)
  deriving DecidableEq, Repr

/-- An error with its value, and how many pairs and atoms the value cost. -/
structure ErrorReport where
  error : EvalError
  value : Value
  pairs : Nat
  atoms : Nat

/-- Reports on errors in their order, and which of them are equal to which. -/
structure ErrorSurvey where
  reports : List ErrorReport
  equal : List (List Bool)

namespace ErrorTerm

def build : ErrorTerm → Heap → EvalError × Heap
  | failure value, heap =>
    let (value, heap) := value.build {} heap
    (.failure value, heap)
  | unboundVariable name, heap =>
    let (name, heap) := name.build {} heap
    (.unboundVariable name, heap)
  | wrongType expected got, heap =>
    let (got, heap) := got.build {} heap
    (.mismatch (.wrongType expected got), heap)
  | wrongCount expected got, heap => (.mismatch (.wrongCount expected got), heap)
  | unknownCode code, heap => (.mismatch (.unknownCode code), heap)
  | unknownObject sender target, heap => (.unknownObject sender target, heap)
  | stackOverflow depth limit, heap => (.stackOverflow depth limit, heap)

def buildAll : List ErrorTerm → Heap → List EvalError × Heap
  | [], heap => ([], heap)
  | term :: terms, heap =>
    let (error, heap) := term.build heap
    let (errors, heap) := buildAll terms heap
    (error :: errors, heap)

end ErrorTerm

namespace EvalError

def report (e : EvalError) (heap : Heap) : ErrorReport × Heap :=
  let (value, after) := e.toValue heap
  (⟨e, value, after.pairs - heap.pairs, after.atoms - heap.atoms⟩, after)

def reportAll : List EvalError → Heap → List ErrorReport
  | [], _ => []
  | error :: errors, heap =>
    let (report, heap) := error.report heap
    report :: reportAll errors heap

/-- Builds errors, reports on each, and compares all of them. -/
def survey (terms : List ErrorTerm) : ErrorSurvey :=
  let (errors, heap) := ErrorTerm.buildAll terms {}
  ⟨reportAll errors heap, errors.map fun error => errors.map error.equal⟩

end EvalError

end LispContext
