/-!
Values of the little Lisp: the empty list, atoms, and pairs. Atoms and pairs carry the number of the
node that holds them, given out by the heap at allocation. So equality of Lean terms says "the same
nodes throughout", while equality of contents is a function of its own, in `Value.Equality`.

The heap remembers nothing but how many pairs and how many atoms it has ever made, and these two
counts are the numbers of the next pair and the next atom. A node is therefore new exactly because
its number was not in use before.
-/
namespace LispContext

/-- A scalar. Symbols and strings are different kinds even when they carry one text. -/
inductive Atom where
  | symbol (name : String)
  | string (text : String)
  | number (value : Int64)
  deriving DecidableEq, Repr

namespace Atom

def kindName : Atom → String
  | symbol _ => "symbol"
  | string _ => "string"
  | number _ => "number"

end Atom

/-- A value and the numbers of the nodes it is made of. The empty list has no node. -/
inductive Value where
  | nil
  | atom (node : Nat) (content : Atom)
  | pair (node : Nat) (head tail : Value)
  deriving DecidableEq, Repr, Inhabited

namespace Value

def kindName : Value → String
  | nil => "nil"
  | atom _ content => content.kindName
  | pair _ _ _ => "pair"

def isNil : Value → Bool
  | nil => true
  | _ => false

def isAtom : Value → Bool
  | atom _ _ => true
  | _ => false

def isPair : Value → Bool
  | pair _ _ _ => true
  | _ => false

def atom? : Value → Option Atom
  | atom _ content => some content
  | _ => none

def symbol? : Value → Option String
  | atom _ (.symbol name) => some name
  | _ => none

def string? : Value → Option String
  | atom _ (.string text) => some text
  | _ => none

def number? : Value → Option Int64
  | atom _ (.number value) => some value
  | _ => none

def head? : Value → Option Value
  | pair _ head _ => some head
  | _ => none

def tail? : Value → Option Value
  | pair _ _ tail => some tail
  | _ => none

/-- Both sides are the same node. Two empty lists always are; an atom is never a pair. -/
def sameNode : Value → Value → Bool
  | nil, nil => true
  | atom node _, atom node' _ => node = node'
  | pair node _ _, pair node' _ _ => node = node'
  | _, _ => false

/-- Number of leaves and pairs, the measure of the walks over whole values. -/
def size : Value → Nat
  | nil => 1
  | atom _ _ => 1
  | pair _ head tail => head.size + tail.size + 1

theorem size_pos (v : Value) : 0 < v.size := by cases v <;> simp [size]

@[simp] theorem isNil_iff {v : Value} : v.isNil = true ↔ v = nil := by cases v <;> simp [isNil]

@[simp] theorem sameNode_self (v : Value) : v.sameNode v = true := by cases v <;> simp [sameNode]

theorem sameNode_comm (v w : Value) : v.sameNode w = w.sameNode v := by
  cases v <;> cases w <;> simp [sameNode, eq_comm]

@[simp] theorem head?_pair (node : Nat) (head tail : Value) :
    (pair node head tail).head? = some head := rfl

@[simp] theorem tail?_pair (node : Nat) (head tail : Value) :
    (pair node head tail).tail? = some tail := rfl

end Value

/-- How many pairs and atoms were ever allocated. -/
structure Heap where
  pairs : Nat := 0
  atoms : Nat := 0
  deriving DecidableEq, Repr, Inhabited

namespace Heap

def cons (heap : Heap) (head tail : Value) : Value × Heap :=
  (.pair heap.pairs head tail, { heap with pairs := heap.pairs + 1 })

def atom (heap : Heap) (content : Atom) : Value × Heap :=
  (.atom heap.atoms content, { heap with atoms := heap.atoms + 1 })

def symbol (heap : Heap) (name : String) : Value × Heap := heap.atom (.symbol name)

def string (heap : Heap) (text : String) : Value × Heap := heap.atom (.string text)

def number (heap : Heap) (value : Int64) : Value × Heap := heap.atom (.number value)

/-- A new proper list of the given values, built from its last pair. -/
def list (heap : Heap) (items : List Value) : Value × Heap :=
  items.foldr (fun item built => built.2.cons item built.1) (.nil, heap)

def strings (heap : Heap) (texts : List String) : List Value × Heap :=
  texts.foldr (fun text built =>
    let (value, heap) := built.2.string text
    (value :: built.1, heap)) ([], heap)

@[simp] theorem list_nil (heap : Heap) : heap.list [] = (.nil, heap) := rfl

@[simp] theorem list_cons (heap : Heap) (item : Value) (items : List Value) :
    heap.list (item :: items) = (heap.list items).2.cons item (heap.list items).1 := rfl

@[simp] theorem cons_atoms (heap : Heap) (head tail : Value) :
    (heap.cons head tail).2.atoms = heap.atoms := rfl

@[simp] theorem cons_pairs (heap : Heap) (head tail : Value) :
    (heap.cons head tail).2.pairs = heap.pairs + 1 := rfl

@[simp] theorem atom_atoms (heap : Heap) (content : Atom) :
    (heap.atom content).2.atoms = heap.atoms + 1 := rfl

/-- A list costs one pair for each element. -/
@[simp] theorem list_pairs (heap : Heap) (items : List Value) :
    (heap.list items).2.pairs = heap.pairs + items.length := by
  induction items with
  | nil => rfl
  | cons item items ih => simp [ih, Nat.add_assoc]

/-- A list costs no atom. -/
@[simp] theorem list_atoms (heap : Heap) (items : List Value) :
    (heap.list items).2.atoms = heap.atoms := by
  induction items with
  | nil => rfl
  | cons item items ih => simp [ih]

end Heap

end LispContext
