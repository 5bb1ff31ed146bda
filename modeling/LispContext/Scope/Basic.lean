import LispContext.Value.Equality
import LispContext.Value.Print

/-!
Scopes. A scope is a chain of frames, innermost first, and a frame is a table of bindings, most
recent first; both are ordinary lists. No operation changes a node: an update makes a new chain that
shares with the old one what it did not touch, so whoever keeps a scope keeps a snapshot.

Nothing here fails. A name that is not bound reads as the empty list, a chain without frames stays
as it is when a frame is popped, and of two lists of names and arguments the longer one is cut off.

The new binding of an update goes in front of the innermost frame that has a value other than the
empty list for the name; where no frame has one, it goes to the outermost frame; and a chain that
has run out of frames gets a frame of its own. The frames in front of the target are linked anew,
the part behind it is shared.
-/
namespace LispContext

structure Scope where
  chain : Value
  deriving DecidableEq, Repr, Inhabited

namespace Scope

/-- A scope with one frame that binds nothing. -/
def new (heap : Heap) : Scope × Heap :=
  let (chain, heap) := heap.cons .nil .nil
  (⟨chain⟩, heap)

/-- The frames, innermost first. -/
def frames (s : Scope) : List Value := s.chain.elements

def depth (s : Scope) : Nat := s.chain.length

def outermost? (s : Scope) : Option Value := s.chain.last?

def isExhausted (s : Scope) : Bool := !s.chain.isPair

/-- The first value of a name that is not the empty list, in a chain. -/
def getIn (name : Value) : Value → Value
  | .pair _ frame outer =>
    let value := Value.assoc name frame
    if value.isNil then getIn name outer else value
  | _ => .nil

/-- The value of a name. Each frame offers the value of its first binding, and a frame whose value
is the empty list is passed over like one that does not bind the name. -/
def get (s : Scope) (name : Value) : Value := getIn name s.chain

def bindingIn? (name : Value) : Value → Option Value
  | .pair _ frame outer =>
    match Value.binding? name frame with
    | some found => some found
    | none => bindingIn? name outer
  | _ => none

/-- The value of the nearest binding of a name, even if it is the empty list. -/
def lookup? (s : Scope) (name : Value) : Option Value := (bindingIn? name s.chain).bind Value.tail?

def bindsIn (name : Value) : Value → Bool
  | .pair _ frame outer => if (Value.binding? name frame).isSome then true else bindsIn name outer
  | _ => false

def binds (s : Scope) (name : Value) : Bool := bindsIn name s.chain

/-- The frame of the bindings of names to arguments, on top of the bindings made so far. Pairing
ends with the shorter list, and a later pair stands in front of an earlier one. -/
def bindAll : Value → Value → Value → Heap → Value × Heap
  | .pair _ name names, .pair _ arg args, frame, heap =>
    let (binding, heap) := heap.cons name arg
    let (frame, heap) := heap.cons binding frame
    bindAll names args frame heap
  | _, _, frame, heap => (frame, heap)

def push (s : Scope) (names args : Value) (heap : Heap) : Scope × Heap :=
  let (frame, heap) := bindAll names args .nil heap
  let (chain, heap) := heap.cons frame s.chain
  (⟨chain⟩, heap)

def pop (s : Scope) : Scope :=
  match s.chain with
  | .pair _ _ outer => ⟨outer⟩
  | _ => s

def pushMany (names args : Value) : Nat → Scope → Heap → Scope × Heap
  | 0, s, heap => (s, heap)
  | times + 1, s, heap =>
    let (s, heap) := s.push names args heap
    pushMany names args times s heap

def popMany : Nat → Scope → Scope
  | 0, s => s
  | times + 1, s => popMany times s.pop

def print (s : Scope) : String := s.chain.print

/-- Popping takes back what was pushed, down to the nodes. -/
@[simp] theorem pop_push (s : Scope) (names args : Value) (heap : Heap) :
    (s.push names args heap).1.pop = s := rfl

/-- A pushed frame adds one to the depth. -/
@[simp] theorem depth_push (s : Scope) (names args : Value) (heap : Heap) :
    (s.push names args heap).1.depth = s.depth + 1 := by
  simp [push, depth, Heap.cons]

@[simp] theorem popMany_zero (s : Scope) : popMany 0 s = s := rfl

@[simp] theorem popMany_succ (times : Nat) (s : Scope) :
    popMany (times + 1) s = popMany times s.pop := rfl

theorem popMany_add (first later : Nat) (s : Scope) :
    popMany (first + later) s = popMany later (popMany first s) := by
  induction first generalizing s with
  | zero => rw [Nat.zero_add, popMany_zero]
  | succ first ih => rw [Nat.succ_add, popMany_succ, popMany_succ, ih]

/-- Each binding of a pushed frame costs two pairs, up to the end of the shorter list. -/
theorem bindAll_pairs (names args frame : Value) (heap : Heap) :
    (bindAll names args frame heap).2.pairs = heap.pairs + 2 * min names.length args.length := by
  induction names generalizing args frame heap with
  | nil => cases args <;> simp [bindAll]
  | atom => cases args <;> simp [bindAll]
  | pair node name names _ ih =>
    cases args with
    | nil => simp [bindAll]
    | atom => simp [bindAll]
    | pair node' arg args =>
      rw [bindAll, ih, Value.length_pair, Value.length_pair, Heap.cons_pairs, Heap.cons_pairs]
      omega

theorem bindAll_atoms (names args frame : Value) (heap : Heap) :
    (bindAll names args frame heap).2.atoms = heap.atoms := by
  induction names generalizing args frame heap with
  | nil => cases args <;> rfl
  | atom => cases args <;> rfl
  | pair node name names _ ih =>
    cases args with
    | nil => rfl
    | atom => rfl
    | pair node' arg args => rw [bindAll, ih, Heap.cons_atoms, Heap.cons_atoms]

/-- A pushed frame costs two pairs for each binding, and one for its place in the chain. -/
theorem push_pairs (s : Scope) (names args : Value) (heap : Heap) :
    (s.push names args heap).2.pairs = heap.pairs + (2 * min names.length args.length + 1) := by
  rw [push, Heap.cons_pairs, bindAll_pairs, Nat.add_assoc]

theorem push_atoms (s : Scope) (names args : Value) (heap : Heap) :
    (s.push names args heap).2.atoms = heap.atoms := by
  rw [push, Heap.cons_atoms, bindAll_atoms]

@[simp] theorem depth_eq_length_frames (s : Scope) : s.frames.length = s.depth := by
  simp [frames, depth]

/-- A chain whose first frame has a new binding in front, made from the frame without it. -/
def install (name value frame outer : Value) (heap : Heap) : Value × Heap :=
  let (binding, heap) := heap.cons name value
  let (frame, heap) := heap.cons binding frame
  heap.cons frame outer

/-- Links frames in front of a chain, the one nearest to the chain first. -/
def relink : List Value → Value → Heap → Value × Heap
  | [], chain, heap => (chain, heap)
  | frame :: passed, chain, heap =>
    let (chain, heap) := heap.cons frame chain
    relink passed chain heap

/-- The frame takes the update: it has a value for the name, or no chain goes on behind it. -/
def takes (name frame outer : Value) : Bool := !(Value.assoc name frame).isNil || outer.isNil

/-- Updates a chain behind the frames that were passed (nearest first). -/
def setPast (name value : Value) (passed : List Value) : Value → Heap → Value × Heap
  | .pair _ frame outer, heap =>
    if takes name frame outer then
      let (chain, heap) := install name value frame outer heap
      relink passed chain heap
    else setPast name value (frame :: passed) outer heap
  | ending, heap =>
    let (chain, heap) := install name value .nil ending heap
    relink passed chain heap

def set (s : Scope) (name value : Value) (heap : Heap) : Scope × Heap :=
  let (chain, heap) := setPast name value [] s.chain heap
  (⟨chain⟩, heap)

@[simp] theorem relink_nil (chain : Value) (heap : Heap) : relink [] chain heap = (chain, heap) :=
  rfl

@[simp] theorem relink_cons (frame : Value) (passed : List Value) (chain : Value) (heap : Heap) :
    relink (frame :: passed) chain heap =
      relink passed (heap.cons frame chain).1 (heap.cons frame chain).2 := rfl

end Scope

namespace Value

/-- The value and its tails, down to the rest, after those already passed (latest first). -/
def tailsAfter : List Value → Value → List Value
  | passed, pair node head tail => tailsAfter (pair node head tail :: passed) tail
  | passed, v => (v :: passed).reverse

def tails (v : Value) : List Value := tailsAfter [] v

end Value

namespace Scope

/-- For each position where both scopes have a frame: the frame is one node. -/
def sharedFrames (a b : Scope) : List Bool := List.zipWith Value.sameNode a.frames b.frames

/-- For the chains, their tails, and so on until one of them has no further tail: both are one node.
-/
def sharedChain (a b : Scope) : List Bool := List.zipWith Value.sameNode a.chain.tails b.chain.tails

end Scope

end LispContext
