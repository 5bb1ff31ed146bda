import LispContext.Value.Basic

/-!
Values read as lists. A list is a chain of pairs along the tails; its elements are the heads, and
its rest is the first tail that is no pair. The rest of a proper list is the empty list, the rest of
`(a b . c)` is `c`, and a value that is no pair has no elements and is its own rest. Every walk runs
along the chain with an accumulator, so its length costs no stack.
-/
namespace LispContext

namespace Value

/-- The elements in front of the rest, after those already seen (latest first). -/
def elementsAfter : List Value → Value → List Value
  | seen, pair _ head tail => elementsAfter (head :: seen) tail
  | seen, _ => seen.reverse

def elements (v : Value) : List Value := elementsAfter [] v

/-- What the chain of pairs ends in. -/
def rest : Value → Value
  | pair _ _ tail => tail.rest
  | v => v

def lengthFrom : Nat → Value → Nat
  | counted, pair _ _ tail => lengthFrom (counted + 1) tail
  | counted, _ => counted

def length (v : Value) : Nat := lengthFrom 0 v

def isList (v : Value) : Bool := v.rest.isNil

/-- There is no element. This holds of every value that is no pair. -/
def isEmpty (v : Value) : Bool := !v.isPair

def lastOr : Option Value → Value → Option Value
  | _, pair _ head tail => lastOr (some head) tail
  | found, _ => found

def last? (v : Value) : Option Value := lastOr none v

theorem elementsAfter_eq (seen : List Value) (v : Value) :
    elementsAfter seen v = seen.reverse ++ v.elements := by
  induction v generalizing seen with
  | pair node head tail _ ih =>
    rw [elements, elementsAfter, elementsAfter, ih, ih [head]]
    simp
  | nil => simp [elementsAfter, elements]
  | atom => simp [elementsAfter, elements]

@[simp] theorem elements_nil : nil.elements = [] := rfl

@[simp] theorem elements_atom (node : Nat) (content : Atom) : (atom node content).elements = [] :=
  rfl

@[simp] theorem elements_pair (node : Nat) (head tail : Value) :
    (pair node head tail).elements = head :: tail.elements := by
  rw [elements, elementsAfter, elementsAfter_eq]
  simp

@[simp] theorem rest_atom (node : Nat) (content : Atom) :
    (atom node content).rest = atom node content := rfl

@[simp] theorem rest_pair (node : Nat) (head tail : Value) :
    (pair node head tail).rest = tail.rest := rfl

theorem lengthFrom_eq (counted : Nat) (v : Value) :
    lengthFrom counted v = counted + v.elements.length := by
  induction v generalizing counted with
  | pair node head tail _ ih => rw [lengthFrom, ih, elements_pair, List.length_cons]; omega
  | nil => simp [lengthFrom]
  | atom => simp [lengthFrom]

/-- The length is the number of elements. -/
@[simp] theorem length_elements (v : Value) : v.elements.length = v.length := by
  simp [length, lengthFrom_eq]

@[simp] theorem length_nil : nil.length = 0 := rfl

@[simp] theorem length_atom (node : Nat) (content : Atom) : (atom node content).length = 0 := rfl

@[simp] theorem length_pair (node : Nat) (head tail : Value) :
    (pair node head tail).length = tail.length + 1 := by
  rw [← length_elements, elements_pair, List.length_cons, length_elements]

theorem lastOr_eq (found : Option Value) (v : Value) :
    lastOr found v = v.elements.getLast?.or found := by
  induction v generalizing found with
  | pair node head tail _ ih => simp [lastOr, ih, List.getLast?_cons]
  | nil => simp [lastOr]
  | atom => simp [lastOr]

@[simp] theorem last?_eq (v : Value) : v.last? = v.elements.getLast? := by simp [last?, lastOr_eq]

@[simp] theorem isList_nil : nil.isList = true := rfl

@[simp] theorem isList_pair (node : Nat) (head tail : Value) :
    (pair node head tail).isList = tail.isList := rfl

end Value

/-- A place in a list: what is not yet passed. -/
structure Cursor where
  rest : Value
  deriving DecidableEq, Repr

namespace Value

def cursor (v : Value) : Cursor := ⟨v⟩

end Value

namespace Cursor

/-- The element under the cursor, and the place after it. At the end the cursor stays. -/
def next (c : Cursor) : Option Value × Cursor :=
  match c.rest with
  | .pair _ head tail => (some head, ⟨tail⟩)
  | _ => (none, c)

def left (c : Cursor) : Nat := c.rest.length

/-- What each of a number of calls of `next` finds, and the cursor after it. -/
def walk : Nat → Cursor → List (Option Value × Cursor)
  | 0, _ => []
  | steps + 1, c => c.next :: walk steps c.next.2

end Cursor

namespace Heap

/-- A new list has the given elements, the same nodes in the same order. -/
@[simp] theorem elements_list (heap : Heap) (items : List Value) :
    (heap.list items).1.elements = items := by
  induction items with
  | nil => rfl
  | cons item items ih => simp [cons, ih]

@[simp] theorem rest_list (heap : Heap) (items : List Value) : (heap.list items).1.rest = .nil := by
  induction items with
  | nil => rfl
  | cons item items ih => simp [cons, ih]

end Heap

end LispContext
