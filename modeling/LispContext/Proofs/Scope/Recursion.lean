import LispContext.Scope.Basic

/-!
# Updates by recursion along the chain

An update passes frames in a loop, keeps them in a list, and links them again in front of the
target. The same chain is built by a recursion that links each passed frame on the way back. What an
update does to a chain is proved on the recursion, one case for each shape of chain.
-/
namespace LispContext.Scope

/-- Updates a chain frame by frame. A frame that does not take the update stays in front of the
updated rest of the chain, and a chain without frames gets one. -/
def setIn (name value : Value) : Value → Heap → Value × Heap
  | .pair _ frame outer, heap =>
    if takes name frame outer then install name value frame outer heap
    else
      let (chain, heap) := setIn name value outer heap
      heap.cons frame chain
  | ending, heap => install name value .nil ending heap

theorem setIn_pair_of_takes (name value : Value) (node : Nat) (frame outer : Value) (heap : Heap)
    (h : takes name frame outer = true) :
    setIn name value (.pair node frame outer) heap = install name value frame outer heap := by
  simp [setIn, h]

theorem setIn_pair_of_passes (name value : Value) (node : Nat) (frame outer : Value) (heap : Heap)
    (h : takes name frame outer = false) :
    setIn name value (.pair node frame outer) heap =
      (setIn name value outer heap).2.cons frame (setIn name value outer heap).1 := by
  simp [setIn, h]

/-- The loop links the frames it has passed in front of what the recursion makes of the chain. -/
theorem setPast_eq (name value : Value) (passed : List Value) (chain : Value) (heap : Heap) :
    setPast name value passed chain heap =
      relink passed (setIn name value chain heap).1 (setIn name value chain heap).2 := by
  induction chain generalizing passed with
  | nil => rfl
  | atom => rfl
  | pair node frame outer _ ih =>
    rw [setPast]
    cases h : takes name frame outer with
    | true => simp [setIn_pair_of_takes, h]
    | false => simp [setIn_pair_of_passes, h, ih]

/-- An update of a scope is the recursion on its chain. -/
theorem set_eq (s : Scope) (name value : Value) (heap : Heap) :
    s.set name value heap =
      (⟨(setIn name value s.chain heap).1⟩, (setIn name value s.chain heap).2) := by
  simp [set, setPast_eq]

@[simp] theorem install_chain (name value frame outer : Value) (heap : Heap) :
    (install name value frame outer heap).1 =
      .pair (heap.pairs + 2) (.pair (heap.pairs + 1) (.pair heap.pairs name value) frame) outer :=
  rfl

/-- A frame takes every update of a name to which it gives a value, and the last frame of a proper
chain takes all. -/
theorem takes_eq_true_iff (name frame outer : Value) :
    takes name frame outer = true ↔ Value.assoc name frame ≠ .nil ∨ outer = .nil := by
  simp [takes, ← Value.isNil_iff]

theorem takes_eq_false_iff (name frame outer : Value) :
    takes name frame outer = false ↔ Value.assoc name frame = .nil ∧ outer ≠ .nil := by
  rw [← Bool.not_eq_true, takes_eq_true_iff]
  simp

/-- Updating never leaves a chain without frames. -/
theorem isPair_setIn (name value chain : Value) (heap : Heap) :
    (setIn name value chain heap).1.isPair = true := by
  cases chain with
  | nil => rfl
  | atom => rfl
  | pair node frame outer =>
    cases h : takes name frame outer with
    | true => simp [setIn_pair_of_takes, h, Value.isPair]
    | false => simp [setIn_pair_of_passes, h, Heap.cons, Value.isPair]

/-- An updated chain ends in what it ended in before. -/
theorem rest_setIn (name value chain : Value) (heap : Heap) :
    (setIn name value chain heap).1.rest = chain.rest := by
  induction chain with
  | nil => rfl
  | atom => rfl
  | pair node frame outer _ ih =>
    cases h : takes name frame outer with
    | true => simp [setIn_pair_of_takes, h]
    | false => simpa [setIn_pair_of_passes, h, Heap.cons] using ih

/-- A proper chain with a frame keeps its number of frames. -/
theorem length_setIn (name value chain : Value) (heap : Heap) (h : chain.isList = true)
    (hp : chain.isPair = true) : (setIn name value chain heap).1.length = chain.length := by
  induction chain with
  | nil => simp [Value.isPair] at hp
  | atom => simp [Value.isPair] at hp
  | pair node frame outer _ ih =>
    cases ht : takes name frame outer with
    | true => simp [setIn_pair_of_takes, ht]
    | false =>
      have ho := ((takes_eq_false_iff _ _ _).mp ht).2
      have hpo : outer.isPair = true := by
        cases outer with
        | nil => exact absurd rfl ho
        | atom => simp [Value.isList, Value.isNil] at h
        | pair => rfl
      simp [setIn_pair_of_passes, ht, Heap.cons, ih h hpo]

end LispContext.Scope
