import LispContext.Value.Format

/-!
The errors of evaluation. Each has a wording, and each can be turned into a list headed by a symbol
that names its kind, so that a handler can take it apart like any other value.
-/
namespace LispContext

inductive EvalError where
  /-- A value raised as an error. -/
  | failure (value : Value)
  /-- A strict read of a name that no frame binds. -/
  | unboundVariable (name : Value)
  /-- A list that does not fit its format. -/
  | mismatch (cause : Mismatch)
  /-- A message to a name that no object has. -/
  | unknownObject (sender target : String)
  /-- A call beyond the limit on nested calls. -/
  | stackOverflow (depth limit : Nat)
  deriving DecidableEq, Repr

/-- The largest count that a number atom holds, `2 ^ 63 - 1`. -/
def largestCount : Nat := 9223372036854775807

namespace Heap

/-- A new number atom for a count. A count too large for it becomes the largest one. -/
def count (heap : Heap) (n : Nat) : Value × Heap := heap.number (Int64.ofNat (min n largestCount))

def tagged (heap : Heap) (tag : String) (parts : List Value) : Value × Heap :=
  let (tag, heap) := heap.symbol tag
  heap.list (tag :: parts)

end Heap

namespace EvalError

def equal : EvalError → EvalError → Bool
  | failure value, failure value' => value.equal value'
  | unboundVariable name, unboundVariable name' => name.equal name'
  | mismatch cause, mismatch cause' => cause.equal cause'
  | unknownObject sender target, unknownObject sender' target' =>
    sender = sender' && target = target'
  | stackOverflow depth limit, stackOverflow depth' limit' => depth = depth' && limit = limit'
  | _, _ => false

def message : EvalError → String
  | failure value => value.print
  | unboundVariable name => "unbound-variable: " ++ name.print
  | mismatch cause => cause.message
  | unknownObject sender target => "unknown-object: " ++ sender ++ " " ++ target
  | stackOverflow depth limit =>
    "stack-overflow: call depth " ++ Text.Decimal.decimal depth ++ " exceeds " ++
      Text.Decimal.decimal limit

/-- The error as a value. A raised value is its own value, down to the node; every other error is a
new list that begins with the kind of the error. -/
def toValue (e : EvalError) (heap : Heap) : Value × Heap :=
  match e with
  | failure value => (value, heap)
  | unboundVariable name => heap.tagged "unbound-variable" [name]
  | mismatch (.wrongType expected got) =>
    let (expected, heap) := heap.symbol expected
    heap.tagged "wrong-argument-type" [expected, got]
  | mismatch (.wrongCount expected got) =>
    let (expected, heap) := heap.count expected
    let (got, heap) := heap.count got
    heap.tagged "wrong-number-of-arguments" [expected, got]
  | mismatch (.unknownCode code) =>
    let (code, heap) := heap.string code.toString
    heap.tagged "unknown-format" [code]
  | unknownObject sender target =>
    let (sender, heap) := heap.symbol sender
    let (target, heap) := heap.symbol target
    heap.tagged "unknown-object" [sender, target]
  | stackOverflow depth limit =>
    let (depth, heap) := heap.count depth
    let (limit, heap) := heap.count limit
    heap.tagged "stack-overflow" [depth, limit]

/-- A raised value costs nothing to convert. -/
@[simp] theorem toValue_failure (value : Value) (heap : Heap) :
    (failure value).toValue heap = (value, heap) := rfl

end EvalError

end LispContext
