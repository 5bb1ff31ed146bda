import LispContext.NameTable
import LispContext.Value.Basic

/-!
Terms: descriptions of values. A term is built on a heap, each time into new nodes; only the name of
a stored value stands for the very nodes that are stored. Four forms describe large values by a
count, and are built in loops.
-/
namespace LispContext

inductive Term where
  | nil
  | atom (content : Atom)
  | cons (head tail : Term)
  /-- The value stored under a name. -/
  | stored (name : String)
  /-- A value wrapped into a one-element list a number of times. -/
  | nest (count : Nat) (core : Term)
  /-- The list of successive numbers. -/
  | range (count : Nat) (first : Int64)
  /-- The list of one node, a number of times. -/
  | replicate (count : Nat) (item : Term)
  /-- Small lists hung alternately on either side of a growing pair. -/
  | mixed (count : Nat)
  deriving DecidableEq, Repr, Inhabited

namespace Heap

def nest : Nat → Value → Heap → Value × Heap
  | 0, core, heap => (core, heap)
  | count + 1, core, heap =>
    let (core, heap) := heap.cons core .nil
    nest count core heap

/-- Puts `first`, `first + 1` and so on in front of a list, the last of them first. -/
def range (first : Int64) : Nat → Value → Heap → Value × Heap
  | 0, list, heap => (list, heap)
  | count + 1, list, heap =>
    let (item, heap) := heap.number (first + Int64.ofNat count)
    let (list, heap) := heap.cons item list
    range first count list heap

def replicate (item : Value) : Nat → Value → Heap → Value × Heap
  | 0, list, heap => (list, heap)
  | count + 1, list, heap =>
    let (list, heap) := heap.cons item list
    replicate item count list heap

/-- Joins a value with the list of a number and the symbol `x`, for the given number of numbers from
the first one on. The list becomes the tail for an even number and the head for an odd one. -/
def mixed : Nat → Nat → Value → Heap → Value × Heap
  | _, 0, built, heap => (built, heap)
  | first, count + 1, built, heap =>
    let (number, heap) := heap.number (Int64.ofNat first)
    let (letter, heap) := heap.symbol "x"
    let (leaf, heap) := heap.list [number, letter]
    let (built, heap) := if first % 2 = 0 then heap.cons built leaf else heap.cons leaf built
    mixed (first + 1) count built heap

end Heap

namespace Term

def listOnto (items : List Term) (rest : Term) : Term := items.foldr cons rest

/-- Builds the value of a term. A name under which nothing is stored stands for the empty list. -/
def build (values : NameTable Value) : Term → Heap → Value × Heap
  | nil, heap => (.nil, heap)
  | atom content, heap => heap.atom content
  | cons head tail, heap =>
    let (head, heap) := head.build values heap
    let (tail, heap) := tail.build values heap
    heap.cons head tail
  | stored name, heap => ((values.get? name).getD .nil, heap)
  | nest count core, heap =>
    let (core, heap) := core.build values heap
    heap.nest count core
  | range count first, heap => heap.range first count .nil
  | replicate count item, heap =>
    let (item, heap) := item.build values heap
    heap.replicate item count .nil
  | mixed count, heap => heap.mixed 0 count .nil

end Term

end LispContext
