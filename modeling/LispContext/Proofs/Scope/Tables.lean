import LispContext.Proofs.Scope.Recursion
import LispContext.Scope.Frames

/-!
# Chains of tables

A table is a proper list of pairs. The frames that pushes and updates make are tables as long as
the frames they start from are, whatever values serve as names, arguments and values.
-/
namespace LispContext

namespace Value

/-- A proper list in which every element is a pair. -/
def isTable (v : Value) : Bool := v.isList && v.elements.all isPair

@[simp] theorem isTable_nil : nil.isTable = true := rfl

@[simp] theorem isTable_pair_pair (cell node : Nat) (key value rest : Value) :
    (pair cell (pair node key value) rest).isTable = rest.isTable := by
  simp [isTable, isPair]

end Value

namespace Scope

structure WellFormed (s : Scope) : Prop where
  isList : s.chain.isList = true
  tables : ∀ frame ∈ s.frames, frame.isTable = true

/-- A pushed frame lists the pairs of names and arguments, the last of them first, in front of what
was bound before. -/
theorem bindings_bindAll (names args frame : Value) (heap : Heap) :
    (bindAll names args frame heap).1.bindings =
      (names.elements.zip args.elements).reverse ++ frame.bindings := by
  induction names generalizing args frame heap with
  | nil => cases args <;> simp [bindAll]
  | atom => cases args <;> simp [bindAll]
  | pair node name names _ ih =>
    cases args with
    | nil => simp [bindAll]
    | atom => simp [bindAll]
    | pair node' arg args => simp [bindAll, ih, Heap.cons]

theorem isTable_bindAll (names args frame : Value) (heap : Heap) (h : frame.isTable = true) :
    (bindAll names args frame heap).1.isTable = true := by
  induction names generalizing args frame heap with
  | nil => cases args <;> simpa [bindAll] using h
  | atom => cases args <;> simpa [bindAll] using h
  | pair node name names _ ih =>
    cases args with
    | nil => simpa [bindAll] using h
    | atom => simpa [bindAll] using h
    | pair node' arg args =>
      apply ih
      simpa [Heap.cons] using h

@[simp] theorem push_chain (s : Scope) (names args : Value) (heap : Heap) :
    (s.push names args heap).1.chain = .pair (bindAll names args .nil heap).2.pairs
      (bindAll names args .nil heap).1 s.chain := rfl

/-- An updated frame is a table if it was one. -/
theorem tables_setIn (name value chain : Value) (heap : Heap)
    (h : ∀ frame ∈ chain.elements, frame.isTable = true) :
    ∀ frame ∈ (setIn name value chain heap).1.elements, frame.isTable = true := by
  induction chain with
  | nil => simp [setIn]
  | atom => simp [setIn]
  | pair node frame outer _ ih =>
    simp only [Value.elements_pair, List.forall_mem_cons] at h
    cases ht : takes name frame outer with
    | true => simpa [setIn_pair_of_takes, ht] using h
    | false => simpa [setIn_pair_of_passes, ht, Heap.cons] using ⟨h.1, ih h.2⟩

theorem tables_set (s : Scope) (name value : Value) (heap : Heap)
    (h : ∀ frame ∈ s.frames, frame.isTable = true) :
    ∀ frame ∈ (s.set name value heap).1.frames, frame.isTable = true := by
  rw [set_eq]
  exact tables_setIn name value s.chain heap h

theorem tables_push (s : Scope) (names args : Value) (heap : Heap)
    (h : ∀ frame ∈ s.frames, frame.isTable = true) :
    ∀ frame ∈ (s.push names args heap).1.frames, frame.isTable = true := by
  simp only [frames, push_chain, Value.elements_pair, List.forall_mem_cons]
  exact ⟨isTable_bindAll names args .nil heap rfl, h⟩

theorem tables_pop (s : Scope) (h : ∀ frame ∈ s.frames, frame.isTable = true) :
    ∀ frame ∈ s.pop.frames, frame.isTable = true := by
  obtain ⟨chain⟩ := s
  cases chain with
  | nil => exact h
  | atom => exact h
  | pair node frame outer =>
    simp only [frames, Value.elements_pair, List.forall_mem_cons] at h
    exact h.2

theorem wellFormed_new (heap : Heap) : (new heap).1.WellFormed :=
  ⟨rfl, by simp [new, frames, Heap.cons]⟩

theorem WellFormed.set {s : Scope} (h : s.WellFormed) (name value : Value) (heap : Heap) :
    (s.set name value heap).1.WellFormed := by
  refine ⟨?_, tables_set s name value heap h.tables⟩
  simpa only [set_eq, Value.isList, rest_setIn] using h.isList

theorem WellFormed.push {s : Scope} (h : s.WellFormed) (names args : Value) (heap : Heap) :
    (s.push names args heap).1.WellFormed :=
  ⟨h.isList, tables_push s names args heap h.tables⟩

theorem WellFormed.pop {s : Scope} (h : s.WellFormed) : s.pop.WellFormed := by
  refine ⟨?_, tables_pop s h.tables⟩
  obtain ⟨chain⟩ := s
  cases chain with
  | nil => exact h.isList
  | atom => exact h.isList
  | pair => exact h.isList

end Scope

end LispContext
